import Portex.Terminal.Step

/-!
# What a step does to the sessions

Every step but a creation finds at most one session, and assigns to its fields. Which session it
finds, and to what end, is decided by lookups in the state before it; the tasks, queues, bridges
and persist jobs it also changes matter to neither the maps nor the records.

## Main definitions

* `Effect`, `Effect.Rewritten`: the ways a session is assigned to
* `target`: the session a step finds, and what it does to it

## Main results

* `does_attachSession`, `does_detachSession` and so on: each operation does what its target says
-/

namespace Portex

open Foundation

/-- The ways a call assigns to a session. -/
inductive Effect
  | attach (queue : ℕ)
  /-- An attach whose bridge factory raises. -/
  | attachRaising (queue : ℕ)
  | detach
  | close
  | exit
  | expire
  /-- `bridge.start` raised in `attach_session`. -/
  | failAttach
  | output

namespace Effect

/-- The status the session gets. -/
def status : Effect → Option TerminalSessionStatus
  | attach _ | attachRaising _ => some .attached
  | detach => some .detached
  | close | expire | failAttach => some .closed
  | exit => some .exited
  | output => none

/-- The output queue afterwards. -/
def outputQueue (before : Option ℕ) : Effect → Option ℕ
  | attach queue | attachRaising queue => some queue
  | detach | close | failAttach => none
  | exit | expire | output => before

/-- What it adds to the history: `connection` is the number of the next connection. -/
def entries (sessionId : String) (connection : ℕ) : Effect → List HistoryEntry
  | attach _ => [.attached connection sessionId]
  | close | exit | expire | failAttach => [.ended sessionId]
  | attachRaising _ | detach | output => []

/-- How a session object before and after an assignment differ. -/
structure Rewritten (effect : Effect) (managed managed' : ManagedTerminalSession) : Prop where
  sessionId : managed'.record.sessionId = managed.record.sessionId
  groupFolder : managed'.record.groupFolder = managed.record.groupFolder
  ownerUserId : managed'.record.ownerUserId = managed.record.ownerUserId
  status : managed'.record.status = effect.status.getD managed.record.status
  outputQueue : managed'.outputQueue = effect.outputQueue managed.outputQueue
  /-- A session keeps its bridge unless its start failed. -/
  bridge : effect ≠ .failAttach → managed.bridge.isSome → managed'.bridge = managed.bridge
  /-- A session that a connection attached to has a bridge. -/
  attached : ∀ queue, effect = .attach queue → managed'.bridge.isSome

end Effect

namespace TerminalSessionService

variable {s t : TerminalSessionService}

/-! ## Frames -/

/-- The sessions and the maps are the same. -/
structure SameSessions (s t : TerminalSessionService) : Prop where
  sessions : t.sessions = s.sessions
  sessionsById : t.sessionsById = s.sessionsById
  sessionsByGroup : t.sessionsByGroup = s.sessionsByGroup

/-- The connections and the history are the same. -/
structure SameConnections (s t : TerminalSessionService) : Prop where
  connections : t.connections = s.connections
  history : t.history = s.history

/-- Nothing changes but tasks, queues, bridges, persist jobs, files and the clock. -/
structure Frame (s t : TerminalSessionService) : Prop extends SameSessions s t, SameConnections s t

theorem Frame.refl (s : TerminalSessionService) : Frame s s := ⟨⟨rfl, rfl, rfl⟩, ⟨rfl, rfl⟩⟩

theorem Frame.trans {u : TerminalSessionService} (h : Frame s t) (k : Frame t u) : Frame s u where
  sessions := k.sessions.trans h.sessions
  sessionsById := k.sessionsById.trans h.sessionsById
  sessionsByGroup := k.sessionsByGroup.trans h.sessionsByGroup
  connections := k.connections.trans h.connections
  history := k.history.trans h.history

theorem cancelReconnectTask_eq (managed : ManagedTerminalSession) (s : TerminalSessionService) :
    ∃ tasks, s.cancelReconnectTask managed = { s with tasks } := by
  unfold cancelReconnectTask
  split
  · exact ⟨s.tasks, rfl⟩
  · exact ⟨_, rfl⟩

theorem frame_persist (snapshot : TerminalSessionHistorySnapshot) (next : Continuation)
    (s : TerminalSessionService) : Frame s (s.persist snapshot next).2 :=
  ⟨⟨rfl, rfl, rfl⟩, ⟨rfl, rfl⟩⟩

theorem frame_closeBridge (bridge : Option ℕ) (snapshot : TerminalSessionHistorySnapshot)
    (next : Continuation) (s : TerminalSessionService) :
    Frame s (s.closeBridge bridge snapshot next).2 := by
  cases bridge with
  | none => exact frame_persist snapshot next s
  | some bridge => exact ⟨⟨rfl, rfl, rfl⟩, ⟨rfl, rfl⟩⟩

theorem frame_put (queue : Option ℕ) (event : TerminalSessionEvent) (s : TerminalSessionService) :
    Frame s (s.put queue event) := by
  cases queue with
  | none => exact Frame.refl s
  | some queue => exact ⟨⟨rfl, rfl, rfl⟩, ⟨rfl, rfl⟩⟩

theorem frame_call (result : TaskPhase × TerminalSessionService) : Frame result.2 (call result) :=
  ⟨⟨rfl, rfl, rfl⟩, ⟨rfl, rfl⟩⟩

theorem frame_finish (s : TerminalSessionService) (next : Continuation) :
    Frame s (s.finish next).2 := by
  cases next with
  | put queue event => exact frame_put queue event s
  | _ => exact Frame.refl s

theorem frame_resumeCreate (groupFolder : String) (record : TerminalSessionRecord) (bridge : ℕ)
    (s : TerminalSessionService) :
    Frame s ((s.bridgeStarted bridge).resumeCreate groupFolder record).2 := by
  refine .trans (t := s.bridgeStarted bridge) ⟨⟨rfl, rfl, rfl⟩, ⟨rfl, rfl⟩⟩ ?_
  unfold resumeCreate
  split
  · exact frame_finish _ _
  · exact frame_persist _ _ _

/-! ## The session a step finds -/

/-- The session of an id, where the user owns it. -/
def owned (s : TerminalSessionService) (sessionId ownerUserId : String) :
    Option (ℕ × ManagedTerminalSession) :=
  (s.session sessionId).filter fun entry => entry.2.record.ownerUserId = ownerUserId

/-- The session an attach finds, and what it does to it. -/
def attachTarget (s : TerminalSessionService) (sessionId ownerUserId : String)
    (factory : Except String (Option String)) : Option (ℕ × ManagedTerminalSession × Effect) :=
  (s.owned sessionId ownerUserId).map fun (i, managed) =>
    (i, managed, match managed.bridge, factory with
      | none, .error _ => .attachRaising s.queues.size
      | _, _ => .attach s.queues.size)

/-- The session that a close by group finds, first by its group and then by its id. -/
def groupTarget (s : TerminalSessionService) (groupFolder ownerUserId : String) :
    Option (ℕ × ManagedTerminalSession × Effect) :=
  ((s.sessionOfGroup groupFolder).filter fun (_, managed) =>
    managed.record.ownerUserId = ownerUserId).bind fun (_, managed) =>
      (s.owned managed.record.sessionId ownerUserId).map fun (i, managed) => (i, managed, .close)

/-- The session a bridge event finds, and what the event does to it. -/
def eventTarget (s : TerminalSessionService) (sessionId : String) (event : TerminalBridgeEvent) :
    Option (ℕ × ManagedTerminalSession × Effect) :=
  (s.session sessionId).bind fun (i, managed) =>
    match event.type with
    | .output => event.data.map fun _ => (i, managed, .output)
    | .exit => some (i, managed, .exit)
    | .error | .other _ => none

/-- The session that a resumed task finds, and what it does to it. -/
def phaseTarget (s : TerminalSessionService) (failure : Option String) :
    TaskPhase → Option (ℕ × ManagedTerminalSession × Effect)
  | .startingAgain record _ _ _ =>
    failure.bind fun _ => (s.session record.sessionId).map fun (i, managed) =>
      (i, managed, .failAttach)
  | .sleeping sessionId deadline =>
    ((s.session sessionId).filter fun (_, managed) =>
      managed.record.status = .detached ∧ managed.record.reconnectDeadline = some deadline).map
        fun (i, managed) => (i, managed, .expire)
  | _ => none

/-- The session that a step finds, with its number, and what the step does to it. -/
def target (s : TerminalSessionService) : Action → Option (ℕ × ManagedTerminalSession × Effect)
  | .attach sessionId ownerUserId factory => s.attachTarget sessionId ownerUserId factory
  | .disconnect connection => (s.openConnection connection).bind fun c =>
    (s.owned c.sessionId c.ownerUserId).map fun (i, managed) => (i, managed, .detach)
  | .closeFrame connection => (s.openConnection connection).bind fun c =>
    (s.owned c.sessionId c.ownerUserId).map fun (i, managed) => (i, managed, .close)
  | .detach sessionId ownerUserId => (s.owned sessionId ownerUserId).map fun (i, managed) =>
    (i, managed, .detach)
  | .close sessionId ownerUserId => (s.owned sessionId ownerUserId).map fun (i, managed) =>
    (i, managed, .close)
  | .closeByGroup groupFolder ownerUserId => s.groupTarget groupFolder ownerUserId
  | .forceClose groupFolder => (s.sessionOfGroup groupFolder).map fun (i, managed) =>
    (i, managed, .close)
  | .bridgeEvent bridge event => (s.bridges.get? bridge).bind fun b =>
    s.eventTarget b.sessionId event
  | .resume task failure => (s.tasks.get? task).bind fun t =>
    if t.cancelRequested then none else s.phaseTarget failure t.phase
  | .create _ _ _ _ _ _ | .write _ _ | .setClock _ => none

/-! ## The operations -/

/-- The state after the assignment of an effect: the end of a session enters the history. -/
def assign (effect : Effect) (i : ℕ) (managed : ManagedTerminalSession)
    (s : TerminalSessionService) : TerminalSessionService :=
  match effect with
  | .close | .exit | .expire | .failAttach => s.endSession i managed
  | .attach _ | .attachRaising _ | .detach | .output => s.setSession i managed

/-- An operation assigns to the session it found, if any, and otherwise stays in the frame. -/
def Does (s : TerminalSessionService) (found : Option (ℕ × ManagedTerminalSession × Effect))
    (t : TerminalSessionService) : Prop :=
  match found with
  | none => Frame s t
  | some (i, managed, effect) =>
    ∃ managed', effect.Rewritten managed managed' ∧ Frame (s.assign effect i managed') t

theorem Does.trans {u : TerminalSessionService}
    {found : Option (ℕ × ManagedTerminalSession × Effect)} (h : Does s found t) (k : Frame t u) :
    Does s found u := by
  match found, h with
  | none, h => exact Frame.trans h k
  | some _, ⟨managed', hm, ht⟩ => exact ⟨managed', hm, ht.trans k⟩

theorem owned_eq_some {sessionId ownerUserId : String} {i : ℕ} {managed : ManagedTerminalSession} :
    s.owned sessionId ownerUserId = some (i, managed) ↔
      s.session sessionId = some (i, managed) ∧ managed.record.ownerUserId = ownerUserId := by
  simp [owned, Option.filter_eq_some_iff]

theorem requireOwned_of_owned {sessionId ownerUserId : String} {entry : ℕ × ManagedTerminalSession}
    (h : s.owned sessionId ownerUserId = some entry) :
    s.requireOwned sessionId ownerUserId = .ok entry := by
  obtain ⟨hs, ho⟩ := owned_eq_some.mp h
  simp [requireOwned, requireSession, requireOwner, hs, ho, Except.bind]

theorem requireOwned_of_not_owned {sessionId ownerUserId : String}
    (h : s.owned sessionId ownerUserId = none) :
    ∃ error, s.requireOwned sessionId ownerUserId = .error error := by
  unfold requireOwned requireSession
  cases hs : s.session sessionId with
  | none => exact ⟨_, rfl⟩
  | some entry =>
    have ho : entry.2.record.ownerUserId ≠ ownerUserId := by
      simpa [owned, hs] using h
    exact ⟨.ownership, by simp [Except.bind, requireOwner, ho]⟩

theorem does_detachSession (sessionId ownerUserId : String) (s : TerminalSessionService) :
    Does s ((s.owned sessionId ownerUserId).map fun (i, managed) => (i, managed, .detach))
      (s.detachSession sessionId ownerUserId).2 := by
  unfold detachSession
  cases h : s.owned sessionId ownerUserId with
  | none =>
    obtain ⟨error, he⟩ := requireOwned_of_not_owned h
    rw [he]
    exact Frame.refl s
  | some entry =>
    obtain ⟨i, managed⟩ := entry
    obtain ⟨tasks, ht⟩ := cancelReconnectTask_eq managed s
    simp only [requireOwned_of_owned h, ht]
    refine ⟨_, ?_, ⟨rfl, rfl, rfl⟩, ⟨rfl, rfl⟩⟩
    exact ⟨rfl, rfl, rfl, rfl, rfl, fun _ _ => rfl, by simp⟩

theorem does_attachSession (sessionId ownerUserId : String)
    (factory : Except String (Option String)) (s : TerminalSessionService) :
    Does s (s.attachTarget sessionId ownerUserId factory)
      (s.attachSession sessionId ownerUserId factory).2 := by
  unfold attachSession attachTarget
  cases h : s.owned sessionId ownerUserId with
  | none =>
    obtain ⟨error, he⟩ := requireOwned_of_not_owned h
    rw [he]
    exact Frame.refl s
  | some entry =>
    obtain ⟨i, managed⟩ := entry
    obtain ⟨tasks, ht⟩ := cancelReconnectTask_eq managed s
    simp only [requireOwned_of_owned h, ht, ManagedTerminalSession.attach]
    -- The output queue is replaced in any case; only the bridge is asked for if there is none.
    cases hb : managed.bridge with
    | some bridge =>
      simp only [Option.map_some, hb]
      refine ⟨_, ?_, ⟨rfl, rfl, rfl⟩, ⟨rfl, rfl⟩⟩
      exact ⟨rfl, rfl, rfl, rfl, rfl, fun _ _ => hb.symm, fun _ _ => rfl⟩
    | none =>
      cases factory with
      -- The factory raises when the session has lost its queue already.
      | error message =>
        simp only [Option.map_some, hb]
        refine ⟨_, ?_, ⟨rfl, rfl, rfl⟩, ⟨rfl, rfl⟩⟩
        exact ⟨rfl, rfl, rfl, rfl, rfl, fun _ _ => hb.symm, by simp⟩
      | ok containerName =>
        simp only [Option.map_some, hb]
        refine ⟨_, ?_, ⟨rfl, rfl, rfl⟩, ⟨rfl, rfl⟩⟩
        exact ⟨rfl, rfl, rfl, rfl, rfl, fun _ h => by simp [hb] at h, by simp⟩

theorem does_closeManaged (i : ℕ) (managed : ManagedTerminalSession) (s : TerminalSessionService) :
    Does s (some (i, managed, .close)) (s.closeManaged i managed).2 := by
  obtain ⟨tasks, ht⟩ := cancelReconnectTask_eq managed s
  unfold closeManaged
  simp only [ht]
  refine ⟨managed.close, ⟨rfl, rfl, rfl, rfl, rfl, fun _ _ => rfl, by simp⟩, ?_⟩
  refine .trans ?_ (frame_closeBridge _ _ _ _)
  exact ⟨⟨rfl, rfl, rfl⟩, ⟨rfl, rfl⟩⟩

theorem does_closeSession (sessionId ownerUserId : String) (s : TerminalSessionService) :
    Does s ((s.owned sessionId ownerUserId).map fun (i, managed) => (i, managed, .close))
      (s.closeSession sessionId ownerUserId).2 := by
  unfold closeSession
  cases h : s.owned sessionId ownerUserId with
  | none =>
    obtain ⟨error, he⟩ := requireOwned_of_not_owned h
    rw [he]
    exact Frame.refl s
  | some entry =>
    rw [requireOwned_of_owned h]
    exact does_closeManaged entry.1 entry.2 s

theorem does_closeSessionByGroup (groupFolder ownerUserId : String) (s : TerminalSessionService) :
    Does s (s.groupTarget groupFolder ownerUserId)
      (s.closeSessionByGroup groupFolder ownerUserId).2 := by
  unfold closeSessionByGroup groupTarget
  cases h : s.sessionOfGroup groupFolder with
  | none => exact Frame.refl s
  | some entry =>
    obtain ⟨i, managed⟩ := entry
    by_cases ho : managed.record.ownerUserId = ownerUserId
    · simpa [requireOwner, ho, Option.filter] using
        does_closeSession managed.record.sessionId ownerUserId s
    · simpa [requireOwner, ho, Option.filter, Does] using Frame.refl s

theorem does_forceCloseSessionByGroup (groupFolder : String) (s : TerminalSessionService) :
    Does s ((s.sessionOfGroup groupFolder).map fun (i, managed) => (i, managed, .close))
      (s.forceCloseSessionByGroup groupFolder).2 := by
  unfold forceCloseSessionByGroup
  cases h : s.sessionOfGroup groupFolder with
  | none => exact Frame.refl s
  | some entry => exact does_closeManaged entry.1 entry.2 s

theorem record_appendOutputHistory (historyMaxBytes : ℕ) (managed : ManagedTerminalSession)
    (chunk : String) : ∃ chunks bytes truncated,
    appendOutputHistory historyMaxBytes managed chunk = { managed with
      outputHistoryChunks := chunks
      outputHistoryBytes := bytes
      outputHistoryTruncated := truncated } := by
  unfold appendOutputHistory
  split
  · exact ⟨_, _, _, rfl⟩
  · split
    · exact ⟨_, _, _, rfl⟩
    · exact ⟨_, _, _, rfl⟩

theorem does_handleBridgeEvent (sessionId : String) (event : TerminalBridgeEvent)
    (s : TerminalSessionService) :
    Does s (s.eventTarget sessionId event) (s.handleBridgeEvent sessionId event).2 := by
  unfold handleBridgeEvent eventTarget
  cases h : s.session sessionId with
  | none => exact Frame.refl s
  | some entry =>
    obtain ⟨i, managed⟩ := entry
    obtain ⟨type, data, exitCode, error⟩ := event
    -- Output with text and exits assign to the session; the rest is at most put on its queue.
    cases type with
    | output =>
      cases data with
      | none => exact frame_put _ _ s
      | some data =>
        obtain ⟨chunks, bytes, truncated, ha⟩ :=
          record_appendOutputHistory s.historyMaxBytes managed data
        simp only [Option.bind_some, Option.map_some, ha]
        refine ⟨_, ?_, ⟨rfl, rfl, rfl⟩, ⟨rfl, rfl⟩⟩
        exact ⟨rfl, rfl, rfl, rfl, rfl, fun _ _ => rfl, by simp⟩
    | exit =>
      obtain ⟨tasks, ht⟩ := cancelReconnectTask_eq managed s
      simp only [Option.bind_some, ht]
      refine ⟨_, ?_, ⟨rfl, rfl, rfl⟩, ⟨rfl, rfl⟩⟩
      exact ⟨rfl, rfl, rfl, rfl, rfl, fun _ _ => rfl, by simp⟩
    | error => exact frame_put _ _ s
    | other name => exact Frame.refl s

theorem does_expireDetachedSession (sessionId : String) (deadline : ℕ) (failure : Option String)
    (s : TerminalSessionService) :
    Does s (s.phaseTarget failure (.sleeping sessionId deadline))
      (s.expireDetachedSession sessionId deadline).2 := by
  simp only [expireDetachedSession, phaseTarget]
  cases h : s.session sessionId with
  | none => exact Frame.refl s
  | some entry =>
    obtain ⟨i, managed⟩ := entry
    -- The timer expires a session that is detached and has kept the deadline of the timer.
    by_cases hs : managed.record.status = .detached
    · by_cases hd : managed.record.reconnectDeadline = some deadline
      · simp only [Option.filter_some, hs, hd, and_self, decide_true, if_true, Option.map_some,
          ne_eq, not_true, if_false]
        refine ⟨managed.expire, ⟨rfl, rfl, rfl, rfl, rfl, fun _ _ => rfl, by simp⟩, ?_⟩
        refine .trans ?_ (frame_closeBridge _ _ _ _)
        exact ⟨⟨rfl, rfl, rfl⟩, ⟨rfl, rfl⟩⟩
      · simpa [hs, hd, Option.filter, Does] using Frame.refl s
    · simpa [hs, Option.filter, Does] using Frame.refl s

theorem does_failAttach (record : TerminalSessionRecord) (queue bridge : ℕ)
    (snapshot : TerminalSessionHistorySnapshot) (message : String) (s : TerminalSessionService) :
    Does s (s.phaseTarget (some message) (.startingAgain record queue bridge snapshot))
      (s.failAttach record.sessionId message).2 := by
  simp only [failAttach, phaseTarget, Option.bind_some]
  cases h : s.session record.sessionId with
  | none => exact Frame.refl s
  | some entry =>
    obtain ⟨i, managed⟩ := entry
    refine ⟨_, ?_, ⟨rfl, rfl, rfl⟩, ⟨rfl, rfl⟩⟩
    exact ⟨rfl, rfl, rfl, rfl, rfl, fun h => absurd rfl h, by simp⟩

theorem does_resume {phase : TaskPhase} {failure : Option String}
    {result : TaskPhase × TerminalSessionService} (h : s.resume phase failure = some result) :
    Does s (s.phaseTarget failure phase) result.2 := by
  -- Of the suspended calls only a failed attach and an expired timer assign to a session.
  cases phase with
  | startingNew groupFolder record bridge =>
    cases failure with
    | some message =>
      obtain rfl := Option.some.inj h
      exact Frame.refl s
    | none =>
      obtain rfl := Option.some.inj h
      exact frame_resumeCreate groupFolder record bridge s
  | startingAgain record queue bridge snapshot =>
    cases failure with
    | some message =>
      obtain rfl := Option.some.inj h
      exact does_failAttach record queue bridge snapshot message s
    | none =>
      obtain rfl := Option.some.inj h
      show Frame s _
      exact ⟨⟨rfl, rfl, rfl⟩, ⟨rfl, rfl⟩⟩
  | closingBridge snapshot next =>
    cases failure with
    | some message =>
      obtain rfl := Option.some.inj h
      exact Frame.refl s
    | none =>
      obtain rfl := Option.some.inj h
      exact frame_persist snapshot next s
  | persisting job next =>
    simp only [resume] at h
    split at h
    · obtain rfl := Option.some.inj h
      exact frame_finish s next
    · cases h
  | sleeping sessionId deadline =>
    obtain rfl := Option.some.inj h
    exact does_expireDetachedSession sessionId deadline failure s
  | returned | raised | cancelled => cases h

/-- An attach raises at once where it finds no session, or where the factory raises. -/
theorem attachSession_phase (sessionId ownerUserId : String)
    (factory : Except String (Option String)) (s : TerminalSessionService) :
    match s.attachTarget sessionId ownerUserId factory with
    | some (_, _, .attach _) =>
      ∀ error, (s.attachSession sessionId ownerUserId factory).1 ≠ .raised error
    | _ => ∃ error, (s.attachSession sessionId ownerUserId factory).1 = .raised error := by
  unfold attachSession attachTarget
  cases h : s.owned sessionId ownerUserId with
  | none =>
    obtain ⟨error, he⟩ := requireOwned_of_not_owned h
    rw [he]
    exact ⟨error, rfl⟩
  | some entry =>
    obtain ⟨i, managed⟩ := entry
    simp only [requireOwned_of_owned h, ManagedTerminalSession.attach]
    cases hb : managed.bridge with
    -- With a bridge in place the attach waits for its snapshot, and has raised nothing.
    | some bridge => simp [persist, hb]
    | none =>
      cases factory with
      | error message => simp [hb]
      | ok containerName => simp

end TerminalSessionService

end Portex
