import Portex.Terminal.Effects

/-!
# The sessions after a step

A creation may drop an ended session of its group and open a new one; every other step assigns to
its target. A recovery opens sessions one after the other.

## Main definitions

* `Vacated`, `Created`: what a creation does to the sessions
* `Finds`: how a step finds its session
* `Recovered`: a session as it is made of a snapshot

## Main results

* `step_does`: a step does what its target says
* `finds_of_target`: what a step has checked of its target
* `step_sessions`, `step_create`: the sessions after a step
* `recover_induction`: what every session that is recovered keeps holds after a recovery
-/

namespace Portex

open Foundation

/-- The effects that nothing but the session is checked for. -/
def Effect.Plain : Effect → Prop
  | .close | .exit | .failAttach | .output => True
  | .attach _ | .attachRaising _ | .detach | .expire => False

namespace TerminalSessionService

variable {s t : TerminalSessionService}

/-! ## Steps -/

/-- Creations have no target. -/
def Action.isCreate : Action → Bool
  | .create _ _ _ _ _ _ => true
  | _ => false

/-- The connection that leaves in a step. -/
def leaving : Action → Option ℕ
  | .disconnect connection | .closeFrame connection => some connection
  | _ => none

/-- The state a step acts on: a connection leaves before it detaches or closes. -/
def departed (s : TerminalSessionService) (a : Action) : TerminalSessionService :=
  match leaving a with
  | some connection => s.leave connection
  | none => s

theorem sameSessions_connect (sessionId ownerUserId : String) (queue : ℕ)
    (result : TaskPhase × TerminalSessionService) :
    SameSessions result.2 (connect sessionId ownerUserId queue result) := by
  obtain ⟨phase, s⟩ := result
  cases phase <;> exact ⟨rfl, rfl, rfl⟩

/-- What a task does when the event loop comes back to it: it ends if it was cancelled, and goes on
from its phase otherwise. -/
inductive Resumes (s : TerminalSessionService) (task : ℕ) (failure : Option String) :
    TerminalSessionService → Prop
  | cancel {phase : TaskPhase}
      (found : s.tasks.get? task = some { phase, cancelRequested := true })
      (running : phase.isDone = false) :
      Resumes s task failure (s.setTaskPhase task .cancelled)
  | goOn {phase : TaskPhase} {result : TaskPhase × TerminalSessionService}
      (found : s.tasks.get? task = some { phase, cancelRequested := false })
      (running : phase.isDone = false) (resumed : s.resume phase failure = some result) :
      Resumes s task failure (result.2.setTaskPhase task result.1)

theorem resumes_of_step {task : ℕ} {failure : Option String}
    (h : s.step (.resume task failure) = some t) : Resumes s task failure t := by
  simp only [step, resumeTask] at h
  split at h
  · cases h
  rename_i phase cancelRequested found
  split at h
  · cases h
  rename_i hrunning
  have running : phase.isDone = false := eq_false_of_ne_true hrunning
  cases cancelRequested with
  | true =>
    obtain rfl := Option.some.inj h
    exact .cancel found running
  | false =>
    obtain ⟨result, hresult, rfl⟩ := Option.map_eq_some_iff.mp h
    exact .goOn found running hresult

/-- Only a job that is not done is written, and it is done then. -/
theorem write_of_step {job : ℕ} {failed : Bool} (h : s.step (.write job failed) = some t) :
    ∃ snapshot, s.jobs.get? job = some { snapshot, done := false } ∧
      t = { s with
        jobs := s.jobs.modify job fun j => { j with done := true }
        written := if failed then s.written else s.written ++ [snapshot] } := by
  simp only [step, writeJob] at h
  split at h
  · cases h
  rename_i snapshot done found
  split at h
  · cases h
  rename_i hdone
  obtain rfl := Option.some.inj h
  obtain rfl := eq_false_of_ne_true hdone
  exact ⟨snapshot, found, rfl⟩

/-- **Steps.** A step does what its target says; an attach that succeeds then also makes a
connection. -/
theorem step_does {a : Action} (ha : a.isCreate = false) (h : s.step a = some t) :
    ∃ u, Does (s.departed a) (s.target a) u ∧ SameSessions u t ∧
      ((∀ sessionId ownerUserId factory, a ≠ .attach sessionId ownerUserId factory) →
        SameConnections u t) := by
  -- A call is a task of its own, and adds nothing else to what its operation does.
  have hcall : ∀ {found} (result : TaskPhase × TerminalSessionService),
      Does (s.departed a) found result.2 → found = s.target a →
      ∃ u, Does (s.departed a) (s.target a) u ∧ SameSessions u (call result) ∧
        ((∀ sessionId ownerUserId factory, a ≠ .attach sessionId ownerUserId factory) →
          SameConnections u (call result)) := by
    rintro found result hdoes rfl
    exact ⟨_, hdoes, ⟨rfl, rfl, rfl⟩, fun _ => ⟨rfl, rfl⟩⟩
  cases a with
  | create => cases ha
  | attach sessionId ownerUserId factory =>
    obtain rfl := Option.some.inj h
    exact ⟨_, does_attachSession sessionId ownerUserId factory s, sameSessions_connect _ _ _ _,
      fun h => absurd rfl (h _ _ _)⟩
  -- The two actions of a connection: it leaves, and its operation finds the session it was made
  -- for.
  | disconnect connection =>
    obtain ⟨c, hc, rfl⟩ := Option.map_eq_some_iff.mp h
    exact hcall _ (does_detachSession c.sessionId c.ownerUserId (s.leave connection))
      (by simp only [target, hc]; rfl)
  | closeFrame connection =>
    obtain ⟨c, hc, rfl⟩ := Option.map_eq_some_iff.mp h
    exact hcall _ (does_closeSession c.sessionId c.ownerUserId (s.leave connection))
      (by simp only [target, hc]; rfl)
  | detach sessionId ownerUserId =>
    obtain rfl := Option.some.inj h
    exact hcall _ (does_detachSession sessionId ownerUserId s) rfl
  | close sessionId ownerUserId =>
    obtain rfl := Option.some.inj h
    exact hcall _ (does_closeSession sessionId ownerUserId s) rfl
  | closeByGroup groupFolder ownerUserId =>
    obtain rfl := Option.some.inj h
    exact hcall _ (does_closeSessionByGroup groupFolder ownerUserId s) rfl
  | forceClose groupFolder =>
    obtain rfl := Option.some.inj h
    exact hcall _ (does_forceCloseSessionByGroup groupFolder s) rfl
  | bridgeEvent bridge event =>
    obtain ⟨b, hb, rfl⟩ := Option.map_eq_some_iff.mp h
    exact hcall _ (does_handleBridgeEvent b.sessionId event s) (by simp [target, hb])
  | resume task failure =>
    cases resumes_of_step h with
    | cancel found =>
      refine ⟨s, ?_, ⟨rfl, rfl, rfl⟩, fun _ => ⟨rfl, rfl⟩⟩
      simp only [target, found, Option.bind_some, if_true]
      exact Frame.refl s
    | @goOn _ result found running resumed =>
      refine ⟨result.2, ?_, ⟨rfl, rfl, rfl⟩, fun _ => ⟨rfl, rfl⟩⟩
      simp only [target, found, Option.bind_some, Bool.false_eq_true, if_false]
      exact does_resume resumed
  | write job failed =>
    obtain ⟨snapshot, -, rfl⟩ := write_of_step h
    exact ⟨s, Frame.refl s, ⟨rfl, rfl, rfl⟩, fun _ => ⟨rfl, rfl⟩⟩
  | setClock now =>
    obtain rfl := Option.some.inj h
    exact ⟨s, Frame.refl s, ⟨rfl, rfl, rfl⟩, fun _ => ⟨rfl, rfl⟩⟩

/-- A new session enters both maps. -/
def opened (managed : ManagedTerminalSession) (s : TerminalSessionService) :
    TerminalSessionService :=
  { s with
    sessions := s.sessions.alloc managed
    sessionsByGroup := s.sessionsByGroup.insert managed.record.groupFolder s.sessions.size
    sessionsById := s.sessionsById.insert managed.record.sessionId s.sessions.size }

/-- What a creation does first: an ended session of the group is dropped. -/
inductive Vacated (s : TerminalSessionService) (groupFolder : String) :
    TerminalSessionService → Prop
  | free (none : s.sessionOfGroup groupFolder = none) : Vacated s groupFolder s
  | drop {i : ℕ} {managed : ManagedTerminalSession}
      (found : s.sessionOfGroup groupFolder = some (i, managed))
      (ended : managed.record.status.isTerminal = true) :
      Vacated s groupFolder (s.dropSession i managed)

/-- A session as `create_session` makes it. -/
structure Created (groupFolder ownerUserId sessionId : String) (managed : ManagedTerminalSession) :
    Prop where
  sessionId : managed.record.sessionId = sessionId
  groupFolder : managed.record.groupFolder = groupFolder
  ownerUserId : managed.record.ownerUserId = ownerUserId
  status : managed.record.status = .created

theorem openSession_cases (groupId groupFolder ownerUserId : String)
    (backend : TerminalBackendName) (sessionId : String)
    (factory : Except String (Option String)) (s : TerminalSessionService) :
    let t := (s.openSession groupId groupFolder ownerUserId backend sessionId factory).2
    Frame s t ∨ ∃ managed, Created groupFolder ownerUserId sessionId managed ∧
      Frame (s.opened managed) t := by
  cases factory with
  | error message => exact .inl (.refl s)
  | ok containerName =>
    refine .inr ⟨{ record := _, bridge := some s.bridges.size }, ?_, ⟨rfl, rfl, rfl⟩, ⟨rfl, rfl⟩⟩
    exact ⟨rfl, rfl, rfl, rfl⟩

/-- A creation leaves the sessions alone, or vacates the group and may open a new session. -/
theorem createSession_cases (groupId groupFolder ownerUserId : String)
    (requestedMode : TerminalRequestedMode) (sessionId : String)
    (factory : Except String (Option String)) (s : TerminalSessionService) :
    let t := (s.createSession groupId groupFolder ownerUserId requestedMode sessionId factory).2
    Frame s t ∨ ∃ u, Vacated s groupFolder u ∧ (Frame u t ∨
      ∃ managed, Created groupFolder ownerUserId sessionId managed ∧
        Frame (u.opened managed) t) := by
  unfold createSession
  -- A mode without a backend raises before anything is looked up.
  cases resolveBackend requestedMode with
  | error error => exact .inl (.refl s)
  | ok backend =>
    cases h : s.sessionOfGroup groupFolder with
    | none => exact .inr ⟨s, .free h, openSession_cases _ _ _ _ _ _ _⟩
    | some entry =>
      obtain ⟨i, managed⟩ := entry
      simp only
      -- An ended session of the group is dropped; a running one is returned, or refused to others.
      split
      · rename_i ended
        exact .inr ⟨_, .drop h ended, openSession_cases _ _ _ _ _ _ _⟩
      · split
        · exact .inl (.refl s)
        · exact .inl (.refl s)

/-! ## The sessions -/

theorem session_eq_some {sessionId : String} {i : ℕ} {managed : ManagedTerminalSession} :
    s.session sessionId = some (i, managed) ↔
      s.sessionsById.get? sessionId = some i ∧ s.sessions.get? i = some managed := by
  simp only [session, Option.bind_eq_some_iff, Option.map_eq_some_iff, Prod.mk.injEq]
  constructor
  · rintro ⟨j, hj, m, hm, rfl, rfl⟩
    exact ⟨hj, hm⟩
  · rintro ⟨hi, hm⟩
    exact ⟨i, hi, managed, hm, rfl, rfl⟩

theorem sessionOfGroup_eq_some {groupFolder : String} {i : ℕ} {managed : ManagedTerminalSession} :
    s.sessionOfGroup groupFolder = some (i, managed) ↔
      s.sessionsByGroup.get? groupFolder = some i ∧ s.sessions.get? i = some managed := by
  simp only [sessionOfGroup, Option.bind_eq_some_iff, Option.map_eq_some_iff, Prod.mk.injEq]
  constructor
  · rintro ⟨j, hj, m, hm, rfl, rfl⟩
    exact ⟨hj, hm⟩
  · rintro ⟨hi, hm⟩
    exact ⟨i, hi, managed, hm, rfl, rfl⟩

/-! ## The session a step finds -/

/-- How a step finds its session, and what it has checked of it. -/
inductive Finds (s : TerminalSessionService) (i : ℕ) (managed : ManagedTerminalSession) :
    Action → Effect → Prop
  | attach {sessionId ownerUserId : String} {factory : Except String (Option String)}
      (owned : s.owned sessionId ownerUserId = some (i, managed)) :
      Finds s i managed (.attach sessionId ownerUserId factory) (.attach s.queues.size)
  | attachRaising {sessionId ownerUserId message : String}
      (owned : s.owned sessionId ownerUserId = some (i, managed)) (bridge : managed.bridge = none) :
      Finds s i managed (.attach sessionId ownerUserId (.error message))
        (.attachRaising s.queues.size)
  | detach {sessionId ownerUserId : String}
      (owned : s.owned sessionId ownerUserId = some (i, managed)) :
      Finds s i managed (.detach sessionId ownerUserId) .detach
  | disconnect {k : ℕ} {connection : Connection} (present : s.openConnection k = some connection)
      (owned : s.owned connection.sessionId connection.ownerUserId = some (i, managed)) :
      Finds s i managed (.disconnect k) .detach
  | expire {task : ℕ} {failure : Option String} {sessionId : String}
      (found : s.session sessionId = some (i, managed))
      (detached : managed.record.status = .detached) :
      Finds s i managed (.resume task failure) .expire
  | plain {a : Action} {effect : Effect} (get? : s.sessions.get? i = some managed)
      (plain : effect.Plain) : Finds s i managed a effect

/-- **Targets.** Every step finds its session in one of these ways. -/
theorem finds_of_target {a : Action} {i : ℕ} {managed : ManagedTerminalSession} {effect : Effect}
    (h : s.target a = some (i, managed, effect)) : Finds s i managed a effect := by
  have hget : ∀ {sessionId : String} {j : ℕ} {m : ManagedTerminalSession},
      s.session sessionId = some (j, m) → s.sessions.get? j = some m :=
    fun h => (session_eq_some.mp h).2
  cases a with
  | create | write | setClock => cases h
  | attach sessionId ownerUserId factory =>
    obtain ⟨⟨j, m⟩, howned, heq⟩ := Option.map_eq_some_iff.mp h
    simp only [Prod.mk.injEq] at heq
    obtain ⟨rfl, rfl, heffect⟩ := heq
    split at heffect <;> subst heffect
    · rename_i hbridge
      exact .attachRaising howned hbridge
    · exact .attach howned
  | detach sessionId ownerUserId =>
    obtain ⟨⟨j, m⟩, howned, heq⟩ := Option.map_eq_some_iff.mp h
    cases heq
    exact .detach howned
  | disconnect k =>
    obtain ⟨connection, hconnection, h⟩ := Option.bind_eq_some_iff.mp h
    obtain ⟨⟨j, m⟩, howned, heq⟩ := Option.map_eq_some_iff.mp h
    cases heq
    exact .disconnect hconnection howned
  | close sessionId ownerUserId =>
    obtain ⟨⟨j, m⟩, howned, heq⟩ := Option.map_eq_some_iff.mp h
    cases heq
    exact .plain (hget (owned_eq_some.mp howned).1) trivial
  | closeFrame | closeByGroup =>
    obtain ⟨_, -, h⟩ := Option.bind_eq_some_iff.mp h
    obtain ⟨⟨j, m⟩, howned, heq⟩ := Option.map_eq_some_iff.mp h
    cases heq
    exact .plain (hget (owned_eq_some.mp howned).1) trivial
  | forceClose groupFolder =>
    obtain ⟨⟨j, m⟩, hgroup, heq⟩ := Option.map_eq_some_iff.mp h
    cases heq
    exact .plain (sessionOfGroup_eq_some.mp hgroup).2 trivial
  | bridgeEvent bridge event =>
    obtain ⟨b, -, h⟩ := Option.bind_eq_some_iff.mp h
    obtain ⟨⟨j, m⟩, hsession, h⟩ := Option.bind_eq_some_iff.mp h
    dsimp only at h
    split at h
    · obtain ⟨data, -, heq⟩ := Option.map_eq_some_iff.mp h
      cases heq
      exact .plain (hget hsession) trivial
    · cases h
      exact .plain (hget hsession) trivial
    · cases h
    · cases h
  | resume task failure =>
    obtain ⟨t, -, h⟩ := Option.bind_eq_some_iff.mp h
    split at h
    · cases h
    unfold phaseTarget at h
    split at h
    · obtain ⟨message, -, h⟩ := Option.bind_eq_some_iff.mp h
      obtain ⟨⟨j, m⟩, hsession, heq⟩ := Option.map_eq_some_iff.mp h
      cases heq
      exact .plain (hget hsession) trivial
    · obtain ⟨⟨j, m⟩, hsession, heq⟩ := Option.map_eq_some_iff.mp h
      cases heq
      -- The timer has looked at the status.
      obtain ⟨hsession, hdetached⟩ := Option.filter_eq_some_iff.mp hsession
      exact .expire hsession (of_decide_eq_true hdetached).1
    · cases h

/-- The session that a step finds is there. -/
theorem get?_of_target {a : Action} {i : ℕ} {managed : ManagedTerminalSession} {effect : Effect}
    (h : s.target a = some (i, managed, effect)) : s.sessions.get? i = some managed := by
  have howned : ∀ {sessionId ownerUserId : String},
      s.owned sessionId ownerUserId = some (i, managed) → s.sessions.get? i = some managed :=
    fun howned => (session_eq_some.mp (owned_eq_some.mp howned).1).2
  cases finds_of_target h with
  | attach owned | attachRaising owned | detach owned | disconnect _ owned => exact howned owned
  | expire found => exact (session_eq_some.mp found).2
  | plain get? => exact get?

/-! ## The sessions after a step -/

theorem sameSessions_assign (effect : Effect) (i : ℕ) (managed : ManagedTerminalSession)
    (s : TerminalSessionService) :
    SameSessions (s.setSession i managed) (s.assign effect i managed) := by
  cases effect <;> exact ⟨rfl, rfl, rfl⟩

theorem SameSessions.trans {u : TerminalSessionService} (h : SameSessions s t)
    (k : SameSessions t u) : SameSessions s u where
  sessions := k.sessions.trans h.sessions
  sessionsById := k.sessionsById.trans h.sessionsById
  sessionsByGroup := k.sessionsByGroup.trans h.sessionsByGroup

theorem sameSessions_departed (s : TerminalSessionService) (a : Action) :
    SameSessions s (s.departed a) := by
  unfold departed
  split <;> exact ⟨rfl, rfl, rfl⟩

/-- **The sessions after a step** that creates none: the target is assigned to. -/
theorem step_sessions {a : Action} (ha : a.isCreate = false) (h : s.step a = some t) :
    match s.target a with
    | none => SameSessions s t
    | some (i, managed, effect) => ∃ managed', effect.Rewritten managed managed' ∧
      SameSessions (s.setSession i managed') t := by
  obtain ⟨u, hdoes, hsame, -⟩ := step_does ha h
  have hdeparted := sameSessions_departed s a
  -- The target was found before the connection left, which no session notices.
  generalize s.target a = found at hdoes
  match found, hdoes with
  | none, hdoes => exact (hdeparted.trans hdoes.toSameSessions).trans hsame
  | some (i, managed, effect), ⟨managed', hm, hframe⟩ =>
    refine ⟨managed', hm, .trans ?_ hsame⟩
    refine .trans ?_ hframe.toSameSessions
    refine .trans ?_ (sameSessions_assign effect i managed' _)
    exact ⟨congrArg (fun sessions => Heap.modify sessions i fun _ => managed') hdeparted.sessions,
      hdeparted.sessionsById, hdeparted.sessionsByGroup⟩

/-- **The sessions after a creation.** -/
theorem step_create {groupId groupFolder ownerUserId sessionId : String}
    {requestedMode : TerminalRequestedMode} {factory : Except String (Option String)}
    (h : s.step (.create groupId groupFolder ownerUserId requestedMode sessionId factory) = some t) :
    Frame s t ∨ ∃ u, Vacated s groupFolder u ∧ (Frame u t ∨
      ∃ managed, Created groupFolder ownerUserId sessionId managed ∧
        Frame (u.opened managed) t) := by
  obtain rfl := Option.some.inj h
  have hcall := fun u (hframe : Frame u _) => Frame.trans hframe (frame_call
    (s.createSession groupId groupFolder ownerUserId requestedMode sessionId factory))
  rcases createSession_cases groupId groupFolder ownerUserId requestedMode sessionId factory s with
    hs | ⟨u, hu, hs | ⟨managed, hm, hs⟩⟩
  · exact .inl (hcall _ hs)
  · exact .inr ⟨u, hu, .inl (hcall _ hs)⟩
  · exact .inr ⟨u, hu, .inr ⟨managed, hm, hcall _ hs⟩⟩

theorem frame_dropSession (i : ℕ) (managed : ManagedTerminalSession)
    (s : TerminalSessionService) :
    Frame
      { s with
        sessionsByGroup := s.sessionsByGroup.erase managed.record.groupFolder
        sessionsById := s.sessionsById.erase managed.record.sessionId
        sessions := s.sessions.modify i fun managed => { managed with reconnectTask := none } }
      (s.dropSession i managed) := by
  unfold dropSession
  obtain ⟨tasks, ht⟩ := cancelReconnectTask_eq managed { s with
    sessionsByGroup := s.sessionsByGroup.erase managed.record.groupFolder
    sessionsById := s.sessionsById.erase managed.record.sessionId
    sessions := s.sessions.modify i fun managed => { managed with reconnectTask := none } }
  rw [ht]
  exact ⟨⟨rfl, rfl, rfl⟩, ⟨rfl, rfl⟩⟩

theorem Vacated.sameConnections {groupFolder : String} (h : Vacated s groupFolder t) :
    SameConnections s t := by
  cases h with
  | free => exact ⟨rfl, rfl⟩
  | @drop i managed found ended =>
    have hframe := frame_dropSession i managed s
    exact ⟨hframe.connections, hframe.history⟩

/-! ## Recovery -/

/-- A session as recovery makes it of a snapshot, where its workspace and its id have none. -/
structure Recovered (s : TerminalSessionService) (snapshot : TerminalSessionHistorySnapshot)
    (managed : ManagedTerminalSession) : Prop where
  recoverable : snapshot.record.status.isRecoverable = true
  made : managed = appendOutputHistory s.historyMaxBytes
    { record := { snapshot.record with status := .detached, reconnectDeadline := none }
      outputHistoryTruncated := snapshot.truncated } snapshot.output
  groupFree : s.sessionsByGroup.get? managed.record.groupFolder = none
  idFree : s.sessionsById.get? managed.record.sessionId = none

theorem Recovered.record {snapshot : TerminalSessionHistorySnapshot}
    {managed : ManagedTerminalSession} (h : Recovered s snapshot managed) :
    managed.record =
      { snapshot.record with status := .detached, reconnectDeadline := none } := by
  obtain ⟨_, _, _, happend⟩ := record_appendOutputHistory s.historyMaxBytes
    { record := { snapshot.record with status := .detached, reconnectDeadline := none }
      outputHistoryTruncated := snapshot.truncated } snapshot.output
  rw [h.made, happend]

/-- Nothing runs for a recovered session. -/
theorem Recovered.idle {snapshot : TerminalSessionHistorySnapshot}
    {managed : ManagedTerminalSession} (h : Recovered s snapshot managed) :
    managed.bridge = none ∧ managed.outputQueue = none ∧ managed.reconnectTask = none := by
  obtain ⟨_, _, _, happend⟩ := record_appendOutputHistory s.historyMaxBytes
    { record := { snapshot.record with status := .detached, reconnectDeadline := none }
      outputHistoryTruncated := snapshot.truncated } snapshot.output
  rw [h.made, happend]
  exact ⟨rfl, rfl, rfl⟩

/-- One round of the recovery opens a session, or does nothing. -/
theorem recoverSnapshot_cases (s : TerminalSessionService)
    (snapshot : TerminalSessionHistorySnapshot) :
    s.recoverSnapshot snapshot = s ∨ ∃ managed,
      s.recoverSnapshot snapshot = s.opened managed ∧ Recovered s snapshot managed := by
  unfold recoverSnapshot
  -- The three reasons to pass a snapshot over: its status, its group and its session id.
  split
  · exact .inl rfl
  split
  · exact .inl rfl
  split
  · exact .inl rfl
  -- The output of the snapshot only becomes the history of the new session.
  rename_i hrecoverable hgroup hid
  obtain ⟨_, _, _, happend⟩ := record_appendOutputHistory s.historyMaxBytes
    { record := { snapshot.record with status := .detached, reconnectDeadline := none }
      outputHistoryTruncated := snapshot.truncated } snapshot.output
  refine .inr ⟨_, rfl, not_not.mp hrecoverable, rfl, ?_, ?_⟩
  · rw [happend]
    simpa [Dict.contains] using hgroup
  · rw [happend]
    simpa [Dict.contains] using hid

section Recovery

variable {reconnectTimeoutSeconds : ℕ} {historyMaxBytes : Int}
  {snapshots : List TerminalSessionHistorySnapshot}

/-- **Recovery** opens one session after the other: what holds before the first of them, and is
kept by each, holds afterwards. -/
theorem recover_induction {motive : TerminalSessionService → Prop}
    (init : motive { reconnectTimeoutSeconds, historyMaxBytes := historyMaxBytes.toNat })
    (opened : ∀ s, motive s → ∀ snapshot ∈ snapshots, ∀ managed, Recovered s snapshot managed →
      motive (s.opened managed)) :
    motive (recoverActiveSessions reconnectTimeoutSeconds historyMaxBytes snapshots) := by
  refine List.foldlRecOn snapshots recoverSnapshot init fun s h snapshot hsnapshot => ?_
  rcases recoverSnapshot_cases s snapshot with heq | ⟨managed, heq, hrecovered⟩
  · rwa [heq]
  · rw [heq]
    exact opened s h snapshot hsnapshot managed hrecovered

/-- Nothing but sessions is recovered. -/
theorem recoverActiveSessions_eq (reconnectTimeoutSeconds : ℕ) (historyMaxBytes : Int)
    (snapshots : List TerminalSessionHistorySnapshot) :
    ∃ sessions sessionsByGroup sessionsById,
      recoverActiveSessions reconnectTimeoutSeconds historyMaxBytes snapshots =
        { reconnectTimeoutSeconds, historyMaxBytes := historyMaxBytes.toNat, sessions,
          sessionsByGroup, sessionsById } := by
  apply recover_induction (motive := fun s => ∃ sessions sessionsByGroup sessionsById, s =
    { reconnectTimeoutSeconds, historyMaxBytes := historyMaxBytes.toNat, sessions,
      sessionsByGroup, sessionsById })
  · exact ⟨_, _, _, rfl⟩
  · rintro s ⟨_, _, _, rfl⟩ snapshot - managed -
    exact ⟨_, _, _, rfl⟩

/-- A session of a service into which one was opened. -/
theorem get?_opened {managed managed' : ManagedTerminalSession} {i : ℕ}
    (h : (s.opened managed).sessions.get? i = some managed') :
    i = s.sessions.size ∧ managed' = managed ∨ s.sessions.get? i = some managed' :=
  (Heap.get?_alloc_cases h).imp (fun hnew => ⟨hnew.1, hnew.2.symm⟩) id

/-- Every session after a recovery was made of a snapshot. -/
theorem exists_recovered {i : ℕ} {managed : ManagedTerminalSession}
    (h : (recoverActiveSessions reconnectTimeoutSeconds historyMaxBytes
      snapshots).sessions.get? i = some managed) :
    ∃ s, s.historyMaxBytes = historyMaxBytes.toNat ∧
      ∃ snapshot ∈ snapshots, Recovered s snapshot managed := by
  have hall : (recoverActiveSessions reconnectTimeoutSeconds historyMaxBytes
      snapshots).historyMaxBytes = historyMaxBytes.toNat ∧
    ∀ i managed, (recoverActiveSessions reconnectTimeoutSeconds historyMaxBytes
      snapshots).sessions.get? i = some managed →
        ∃ s, s.historyMaxBytes = historyMaxBytes.toNat ∧
          ∃ snapshot ∈ snapshots, Recovered s snapshot managed := by
    -- The limit is carried along: a session is made with the limit of its service.
    apply recover_induction (motive := fun t => t.historyMaxBytes = historyMaxBytes.toNat ∧
      ∀ i managed, t.sessions.get? i = some managed →
        ∃ s, s.historyMaxBytes = historyMaxBytes.toNat ∧
          ∃ snapshot ∈ snapshots, Recovered s snapshot managed)
    · exact ⟨rfl, fun _ _ hnone => by cases hnone⟩
    · rintro s ⟨hlimit, hold⟩ snapshot hsnapshot managed hrecovered
      refine ⟨hlimit, fun i managed' hget => ?_⟩
      rcases get?_opened hget with ⟨-, rfl⟩ | hget
      · exact ⟨s, hlimit, snapshot, hsnapshot, hrecovered⟩
      · exact hold i managed' hget
  exact hall.2 i managed h

end Recovery

end TerminalSessionService

end Portex
