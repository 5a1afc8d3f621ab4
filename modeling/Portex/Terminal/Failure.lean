import Portex.Terminal.Turns
import Portex.Terminal.Invariant

/-!
# A creation that raises

`create_session` enters its session into both maps before it awaits `bridge.start`, and does not
take it out again when `bridge.start` raises. `attach_session` closes the session then.

## Main definitions

* `activeSessions`: the sessions that are not closed and have not exited
* `Blocked`: the session of another user keeps a user from creating one
* `RaisesByBridge`: a call of `create_session` raises what its bridge factory or bridge raised
* `Undone`: nothing of a call is left behind

## Main results

* `undone_iff_factory_raises`: which creations that raise leave nothing behind
* `exists_orphan`: a creation that raises and leaves a session that no one else can replace
-/

namespace Portex

open Foundation

namespace TerminalSessionService

variable {s t u : TerminalSessionService}

/-- The sessions in the maps that are not closed and have not exited. -/
def activeSessions (s : TerminalSessionService) : Set (ℕ × ManagedTerminalSession) :=
  {entry | ∃ sessionId, s.session sessionId = some entry ∧ entry.2.record.status.isTerminal = false}

/-- The workspace has an active session of another user. -/
def Blocked (s : TerminalSessionService) (groupFolder ownerUserId : String) : Prop :=
  ∃ i managed, s.sessionOfGroup groupFolder = some (i, managed) ∧
    managed.record.status.isTerminal = false ∧ managed.record.ownerUserId ≠ ownerUserId

/-- A call of `create_session`, from its first step on with nothing in between, raises what its
bridge factory or `bridge.start` raised. -/
inductive RaisesByBridge (s : TerminalSessionService) (a : Action) (message : String) :
    TerminalSessionService → Prop
  | factory {t : TerminalSessionService} (call : s.step a = some t)
      (raised : t.phase? s.tasks.size = some (.raised (.bridge message))) :
      RaisesByBridge s a message t
  | start {t u : TerminalSessionService} {groupFolder : String} {record : TerminalSessionRecord}
      {bridge : ℕ} (call : s.step a = some t)
      (starting : t.phase? s.tasks.size = some (.startingNew groupFolder record bridge))
      (resume : t.step (.resume s.tasks.size (some message)) = some u) :
      RaisesByBridge s a message u

/-- The active sessions are those of before, and no user is kept from a workspace who was not. -/
structure Undone (s t : TerminalSessionService) : Prop where
  active : t.activeSessions = s.activeSessions
  blocked : ∀ groupFolder ownerUserId, t.Blocked groupFolder ownerUserId →
    s.Blocked groupFolder ownerUserId

/-- A blocked user gets a conflict. -/
theorem blocked_iff_conflict (groupId groupFolder ownerUserId sessionId : String)
    (factory : Except String (Option String)) :
    s.Blocked groupFolder ownerUserId ↔
      (s.createSession groupId groupFolder ownerUserId .container sessionId factory).1 =
        .raised .conflict := by
  have hopen : ∀ backend (u : TerminalSessionService),
      (u.openSession groupId groupFolder ownerUserId backend sessionId factory).1 ≠
        .raised .conflict := by
    intro backend u h
    cases factory <;> cases h
  unfold Blocked createSession
  cases hfound : s.sessionOfGroup groupFolder with
  | none =>
    refine ⟨?_, fun h => absurd h (hopen _ _)⟩
    rintro ⟨i, managed, h, -⟩
    cases h
  | some entry =>
    obtain ⟨i, managed⟩ := entry
    simp only [resolveBackend]
    split
    · rename_i hended
      refine ⟨?_, fun h => absurd h (hopen _ _)⟩
      rintro ⟨j, m, h, hactive, -⟩
      cases h
      rw [hended] at hactive
      cases hactive
    · rename_i hactive
      split
      · rename_i howner
        exact ⟨fun _ => rfl, fun _ => ⟨i, managed, rfl, by simpa using hactive, howner⟩⟩
      · rename_i howner
        refine ⟨?_, fun h => by cases h⟩
        rintro ⟨j, m, h, -, hne⟩
        cases h
        exact absurd hne howner

/-! ## The two ways to raise -/

/-- A creation opens a session in a vacated workspace, or it has changed nothing and neither starts
a bridge nor raises because of one. -/
theorem createSession_opens (groupId groupFolder ownerUserId : String)
    (requestedMode : TerminalRequestedMode) (sessionId : String)
    (factory : Except String (Option String)) (s : TerminalSessionService) :
    (∃ backend u, Vacated s groupFolder u ∧
      s.createSession groupId groupFolder ownerUserId requestedMode sessionId factory =
        u.openSession groupId groupFolder ownerUserId backend sessionId factory) ∨
    ∃ phase, s.createSession groupId groupFolder ownerUserId requestedMode sessionId factory =
        (phase, s) ∧
      (∀ message, phase ≠ .raised (.bridge message)) ∧
      ∀ groupFolder record bridge, phase ≠ .startingNew groupFolder record bridge := by
  unfold createSession
  cases hbackend : resolveBackend requestedMode with
  | error error =>
    refine .inr ⟨_, rfl, fun message h => ?_, fun _ _ _ => nofun⟩
    cases h
    cases requestedMode <;> cases hbackend
  | ok backend =>
    cases hfound : s.sessionOfGroup groupFolder with
    | none => exact .inl ⟨backend, s, .free hfound, rfl⟩
    | some entry =>
      obtain ⟨i, managed⟩ := entry
      simp only
      split
      · rename_i ended
        exact .inl ⟨backend, _, .drop hfound ended, rfl⟩
      · refine .inr ?_
        split
        · exact ⟨_, rfl, fun _ => nofun, fun _ _ _ => nofun⟩
        · exact ⟨_, rfl, fun _ => nofun, fun _ _ _ => nofun⟩

theorem tasks_vacated {groupFolder : String} (h : Vacated s groupFolder u) :
    u.tasks.size = s.tasks.size ∧ u.sessions.size = s.sessions.size := by
  cases h with
  | free => exact ⟨rfl, rfl⟩
  | @drop i managed =>
    rw [dropSession_eq]
    exact ⟨(phase?_recalled managed s 0).2, Heap.size_modify _ _ _⟩

/-- A suspended task resumes. -/
theorem step_resume {task : ℕ} {failure : Option String} {phase : TaskPhase}
    (hget : s.tasks.get? task = some { phase }) (hrunning : phase.isDone = false) :
    s.step (.resume task failure) =
      (s.resume phase failure).map fun result => result.2.setTaskPhase task result.1 := by
  simp [step, resumeTask, hget, hrunning]

/-- **A creation that raises** because of its bridge has vacated the workspace; where it was the
bridge that raised, it has also left a new session. -/
theorem RaisesByBridge.opened {groupId groupFolder ownerUserId sessionId message : String}
    {requestedMode : TerminalRequestedMode} {factory : Except String (Option String)}
    (h : RaisesByBridge s
      (.create groupId groupFolder ownerUserId requestedMode sessionId factory) message t) :
    ∃ u, Vacated s groupFolder u ∧
      ((∃ message, factory = .error message) ∧ SameSessions u t ∨
        (∃ containerName, factory = .ok containerName) ∧
          ∃ managed, Created groupFolder ownerUserId sessionId managed ∧
            SameSessions (u.opened managed) t) := by
  rcases createSession_opens groupId groupFolder ownerUserId requestedMode sessionId factory s with
    ⟨backend, u, hu, heq⟩ | ⟨phase, heq, hraised, hstarting⟩
  · refine ⟨u, hu, ?_⟩
    have hsize := (tasks_vacated hu).1
    cases factory with
    | error m =>
      refine .inl ⟨⟨m, rfl⟩, ?_⟩
      cases h with
      | factory hcall =>
        obtain rfl := Option.some.inj hcall
        rw [heq]
        exact ⟨rfl, rfl, rfl⟩
      | start hcall hphase =>
        -- Where the factory raises, no bridge is started.
        rw [phase?_create hcall, heq] at hphase
        cases hphase
    | ok containerName =>
      refine .inr ⟨⟨containerName, rfl⟩, ?_⟩
      cases h with
      | factory hcall hphase =>
        rw [phase?_create hcall, heq] at hphase
        cases hphase
      | start hcall hphase hresume =>
        obtain rfl := Option.some.inj hcall
        rw [heq] at hresume
        rw [← hsize, step_resume (by simp [call, openSession]; rfl) rfl] at hresume
        obtain rfl := Option.some.inj hresume
        exact ⟨{ record := u.newRecord groupId groupFolder ownerUserId sessionId backend
                  containerName, bridge := some u.bridges.size }, ⟨rfl, rfl, rfl, rfl⟩,
          ⟨rfl, rfl, rfl⟩⟩
  · cases h with
    | factory hcall hphase =>
      rw [phase?_create hcall, heq] at hphase
      exact absurd (Option.some.inj hphase) (hraised message)
    | start hcall hphase =>
      rw [phase?_create hcall, heq] at hphase
      exact absurd (Option.some.inj hphase) (hstarting _ _ _)

/-! ## What is left -/

theorem SameSessions.undone (h : SameSessions s t) : Undone s t where
  active := by
    ext entry
    simp only [activeSessions, session, h.sessions, h.sessionsById]
  blocked _ _ := by
    simp only [Blocked, sessionOfGroup, h.sessions, h.sessionsByGroup]
    exact id

theorem Undone.trans (h : Undone s t) (k : Undone t u) : Undone s u where
  active := k.active.trans h.active
  blocked _ _ hu := h.blocked _ _ (k.blocked _ _ hu)

/-- Dropping an ended session loses nothing that is active. -/
theorem Inv.undone_vacated (h : Inv s) {groupFolder : String} (hu : Vacated s groupFolder u) :
    Undone s u := by
  cases hu with
  | free => exact SameSessions.undone ⟨rfl, rfl, rfl⟩
  | @drop i managed found ended =>
    obtain ⟨hgroup, hi⟩ := sessionOfGroup_eq_some.mp found
    obtain ⟨m, hm, hfolder, hid⟩ := h.by_group groupFolder i hgroup
    obtain rfl := Option.some.inj (hm.symm.trans hi)
    rw [dropSession_eq]
    -- The sessions of other numbers are as before.
    have hother : ∀ {j}, j ≠ i → (s.sessions.modify i fun managed =>
        { managed with reconnectTask := none }).get? j = s.sessions.get? j := by
      intro j hj
      rw [Heap.get?_modify, if_neg hj]
    constructor
    · ext ⟨j, m'⟩
      constructor
      · rintro ⟨sessionId, hs, hactive⟩
        obtain ⟨hsid, hj⟩ := session_eq_some.mp hs
        rw [Dict.get?_erase] at hsid
        split at hsid
        · cases hsid
        · rename_i hne
          have hji : j ≠ i := by
            rintro rfl
            obtain ⟨m'', hm'', hsid', -⟩ := h.by_id sessionId j hsid
            obtain rfl := Option.some.inj (hm''.symm.trans hi)
            exact hne hsid'.symm
          rw [hother hji] at hj
          exact ⟨sessionId, session_eq_some.mpr ⟨hsid, hj⟩, hactive⟩
      · rintro ⟨sessionId, hs, hactive⟩
        obtain ⟨hsid, hj⟩ := session_eq_some.mp hs
        have hji : j ≠ i := by
          rintro rfl
          obtain rfl := Option.some.inj (hi.symm.trans hj)
          rw [ended] at hactive
          cases hactive
        refine ⟨sessionId, session_eq_some.mpr ⟨?_, ?_⟩, hactive⟩
        · rw [Dict.get?_erase, if_neg ?_, hsid]
          rintro rfl
          rw [hid] at hsid
          exact hji (Option.some.inj hsid).symm
        · rw [hother hji, hj]
    · rintro g v ⟨j, m', hs, hactive, howner⟩
      obtain ⟨hg, hj⟩ := sessionOfGroup_eq_some.mp hs
      rw [Dict.get?_erase] at hg
      split at hg
      · cases hg
      · rename_i hne
        have hji : j ≠ i := by
          rintro rfl
          obtain ⟨m'', hm'', hfolder', -⟩ := h.by_group g j hg
          obtain rfl := Option.some.inj (hm''.symm.trans hi)
          exact hne hfolder'.symm
        rw [hother hji] at hj
        exact ⟨j, m', sessionOfGroup_eq_some.mpr ⟨hg, hj⟩, hactive, howner⟩

/-- **Creations that raise.** In every state of a run of a recovered service, a call of
`create_session` that raises because of its bridge leaves nothing behind if and only if it is the
bridge factory that raised, and not `bridge.start`. -/
theorem undone_iff_factory_raises {reconnectTimeoutSeconds : ℕ} {historyMaxBytes : Int}
    {snapshots : List TerminalSessionHistorySnapshot} {l : List Action}
    {groupId groupFolder ownerUserId sessionId message : String}
    {requestedMode : TerminalRequestedMode} {factory : Except String (Option String)}
    (h : Run step Fresh
      (recoverActiveSessions reconnectTimeoutSeconds historyMaxBytes snapshots) l s)
    (hraises : RaisesByBridge s
      (.create groupId groupFolder ownerUserId requestedMode sessionId factory) message t) :
    Undone s t ↔ ∃ message, factory = .error message := by
  have hinit := (inv_recoverActiveSessions reconnectTimeoutSeconds historyMaxBytes snapshots).1
  have hinv : Inv s := inv_of_run (fun _ _ h => h) hinit h
  obtain ⟨u, hu, ⟨herror, hsame⟩ | ⟨⟨containerName, rfl⟩, managed, hcreated, hsame⟩⟩ :=
    hraises.opened
  · exact ⟨fun _ => herror, fun _ => (hinv.undone_vacated hu).trans hsame.undone⟩
  · constructor
    · intro hundone
      -- The new session is active, and was not there.
      have hmem : (u.sessions.size, managed) ∈ t.activeSessions := by
        refine ⟨sessionId, session_eq_some.mpr ⟨?_, ?_⟩, by rw [hcreated.status]; rfl⟩
        · rw [hsame.sessionsById]
          show (u.sessionsById.insert managed.record.sessionId u.sessions.size).get? sessionId = _
          rw [hcreated.sessionId, Dict.get?_insert, if_pos rfl]
        · rw [hsame.sessions]
          show (u.sessions.alloc managed).get? u.sessions.size = _
          rw [Heap.get?_alloc, if_pos rfl]
      rw [hundone.active] at hmem
      obtain ⟨sessionId', hs, -⟩ := hmem
      have hlt := Heap.lt_size_of_get? (session_eq_some.mp hs).2
      rw [(tasks_vacated hu).2] at hlt
      exact absurd hlt (Nat.lt_irrefl _)
    · rintro ⟨message, h⟩
      cases h

/-- The factory raises for Alice in a workspace, and the session of Bob in another one goes on. -/
theorem undone_iff_factory_raises_succeeding : ∃ s t,
    Run step Fresh (recoverActiveSessions 30 32768 []) succeedingRun s ∧
      (s.record "b").map TerminalSessionRecord.status = some .created ∧
      RaisesByBridge s
        (.create "team" "team" "alice" .container "c" (.error "no container")) "no container" t ∧
      (Undone s t ↔
        ∃ message, (.error "no container" : Except String (Option String)) = .error message) := by
  have hrun : Run step Fresh (recoverActiveSessions 30 32768 []) succeedingRun _ :=
    .of_execute (by decide)
  have h : RaisesByBridge ((execute step Fresh (recoverActiveSessions 30 32768 [])
      succeedingRun).get (by decide))
    (.create "team" "team" "alice" .container "c" (.error "no container")) "no container" _ :=
    .factory rfl rfl
  exact ⟨_, _, hrun, by decide, h, undone_iff_factory_raises hrun h⟩

/-- The bridge of Alice does not start: her session stays `created` with a bridge that was never
started, and Bob cannot create one. -/
theorem exists_orphan :
    ∃ t, RaisesByBridge (recoverActiveSessions 30 32768 [])
        (.create "home" "home" "alice" .container "s" (.ok none)) "no docker" t ∧
      ¬ Undone (recoverActiveSessions 30 32768 []) t ∧
      (t.record "s").map TerminalSessionRecord.status = some .created ∧
      (t.session "s").bind (fun entry => entry.2.bridge) = some 0 ∧
      (t.bridges.get? 0).map TerminalBridge.started = some false ∧
      t.Blocked "home" "bob" := by
  have h : RaisesByBridge (recoverActiveSessions 30 32768 [])
    (.create "home" "home" "alice" .container "s" (.ok none)) "no docker" _ :=
    .start rfl rfl rfl
  refine ⟨_, h, fun hundone => ?_, by decide, by decide, by decide, ?_⟩
  · -- Bob was not blocked before.
    obtain ⟨i, managed, hs, -⟩ := hundone.blocked "home" "bob" ⟨0, _, rfl, rfl, by decide⟩
    cases hs
  · exact ⟨0, _, rfl, rfl, by decide⟩

end TerminalSessionService

end Portex
