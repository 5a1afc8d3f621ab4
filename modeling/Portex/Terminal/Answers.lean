import Portex.Terminal.Turns
import Portex.Terminal.Maps

/-!
# The answer of a creation

`create_session` reads its answer from the map of workspaces again, after it has waited for the
shell to start and for its snapshot to be written. By then the session that it made may have ended,
and another user may have made the next one of the workspace.

## Main definitions

* `AnswersCaller`: every creation of a run answers with a record of its caller
* `Replaces`, `Installs`: the creations that find no live session of a workspace
* `Overtaken`: the last of these before a creation answers is one of another user

## Main results

* `answersCaller_iff_found`: the answer is that of whose session is found
* `Inv.holder_step`, `holder_installs`: whose session a workspace has after a step
* `answersCaller_iff_not_overtaken`: the runs in which every creation answers for its caller
* `exists_foreign_answer`: a run in which a creation answers with the session of another user
-/

namespace Portex

open Foundation

namespace TerminalSessionService

variable {s t u init : TerminalSessionService}

/-- The action is a call of `create_session` for a workspace by a user. -/
def IsCreation (a : Action) (groupFolder ownerUserId : String) : Prop :=
  ∃ groupId requestedMode sessionId factory,
    a = .create groupId groupFolder ownerUserId requestedMode sessionId factory

/-- Every call of `create_session` in the run that has returned a record has returned one with its
own user and workspace. -/
def AnswersCaller (init : TerminalSessionService) (l : List Action) (t : TerminalSessionService) :
    Prop :=
  ∀ l₁ a l₂ u groupFolder ownerUserId record, l = l₁ ++ a :: l₂ →
    IsCreation a groupFolder ownerUserId → Run step Fresh init l₁ u →
      t.phase? u.tasks.size = some (.returned (.record record)) →
        record.ownerUserId = ownerUserId ∧ record.groupFolder = groupFolder

/-- The creation that reads its answer in this step: its workspace, and the record it made. -/
def answering (s : TerminalSessionService) : Action → Option (String × TerminalSessionRecord)
  | .resume task failure => (s.tasks.get? task).bind fun t =>
    if t.cancelRequested then none
    else
      match t.phase with
      | .startingNew groupFolder record _ =>
        if failure = none ∧ s.session record.sessionId = none then some (groupFolder, record)
        else none
      | .persisting job (.created groupFolder record) =>
        if (s.jobs.get? job).any PersistJob.done then some (groupFolder, record) else none
      | _ => none
  | _ => none

/-- A creation that reads its answer finds no session of another user. -/
def Undisturbed (s : TerminalSessionService) (a : Action) : Prop :=
  ∀ groupFolder record, s.answering a = some (groupFolder, record) →
    ∀ current ∈ s.getCurrentSession groupFolder, current.ownerUserId = record.ownerUserId

/-! ## The phases of a creation -/

/-- The phases of a creation for a workspace by a user, that has answered with a record of theirs
if it has. -/
inductive Creating (groupFolder ownerUserId : String) : TaskPhase → Prop
  | starting {record : TerminalSessionRecord} {bridge : ℕ} (group : record.groupFolder = groupFolder)
      (owner : record.ownerUserId = ownerUserId) :
      Creating groupFolder ownerUserId (.startingNew groupFolder record bridge)
  /-- No creation closes a bridge; with this phase the turns need not be told apart. -/
  | closing {record : TerminalSessionRecord} {snapshot : TerminalSessionHistorySnapshot}
      (group : record.groupFolder = groupFolder) (owner : record.ownerUserId = ownerUserId) :
      Creating groupFolder ownerUserId (.closingBridge snapshot (.created groupFolder record))
  | persisting {record : TerminalSessionRecord} {job : ℕ} (group : record.groupFolder = groupFolder)
      (owner : record.ownerUserId = ownerUserId) :
      Creating groupFolder ownerUserId (.persisting job (.created groupFolder record))
  | returned {record : TerminalSessionRecord} (group : record.groupFolder = groupFolder)
      (owner : record.ownerUserId = ownerUserId) :
      Creating groupFolder ownerUserId (.returned (.record record))
  | raised {error : TerminalSessionError} : Creating groupFolder ownerUserId (.raised error)
  | cancelled : Creating groupFolder ownerUserId .cancelled

/-- The current session of a workspace is one of the workspace. -/
theorem Inv.getCurrentSession (h : Inv s) {groupFolder : String} {record : TerminalSessionRecord}
    (hcurrent : s.getCurrentSession groupFolder = some record) :
    record.groupFolder = groupFolder := by
  obtain ⟨⟨i, managed⟩, hfound, rfl⟩ := Option.map_eq_some_iff.mp hcurrent
  obtain ⟨hg, hi⟩ := sessionOfGroup_eq_some.mp hfound
  obtain ⟨m, hm, hgroup, -⟩ := h.by_group groupFolder i hg
  obtain rfl := Option.some.inj (hm.symm.trans hi)
  exact hgroup

/-- What a creation answers with: the current session, or its own record. -/
theorem Inv.answer (h : Inv s) {groupFolder : String} {record : TerminalSessionRecord}
    (hgroup : record.groupFolder = groupFolder)
    (hcurrent : ∀ current ∈ s.getCurrentSession groupFolder,
      current.ownerUserId = record.ownerUserId) :
    Creating groupFolder record.ownerUserId
      (.returned (.record ((s.getCurrentSession groupFolder).getD record))) := by
  cases hcase : s.getCurrentSession groupFolder with
  | none => exact .returned hgroup rfl
  | some current => exact .returned (h.getCurrentSession hcase) (hcurrent current hcase)

theorem Inv.creating_call (h : Inv s) (groupId groupFolder ownerUserId : String)
    (requestedMode : TerminalRequestedMode) (sessionId : String)
    (factory : Except String (Option String)) :
    Creating groupFolder ownerUserId
      (s.createSession groupId groupFolder ownerUserId requestedMode sessionId factory).1 := by
  have hopen : ∀ backend (u : TerminalSessionService), Creating groupFolder ownerUserId
      (u.openSession groupId groupFolder ownerUserId backend sessionId factory).1 := by
    intro backend u
    cases factory with
    | error message => exact .raised
    | ok containerName => exact .starting rfl rfl
  unfold createSession
  split
  · exact .raised
  · split
    · exact hopen _ _
    · rename_i i existing hfound
      split
      · exact hopen _ _
      · split
        · exact .raised
        · rename_i howner
          have hcurrent : s.getCurrentSession groupFolder = some existing.record := by
            rw [TerminalSessionService.getCurrentSession, hfound, Option.map_some]
          exact .returned (h.getCurrentSession hcurrent) (not_not.mp howner)

/-- A turn of an undisturbed creation. -/
theorem Inv.creating_turn (h : Inv s) {a : Action} {groupFolder ownerUserId : String}
    (hundisturbed : s.Undisturbed a) (hturn : Turn s a t) {task : ℕ} {phase phase' : TaskPhase}
    (hphase : s.phase? task = some phase) (hphase' : t.phase? task = some phase')
    (hcreating : Creating groupFolder ownerUserId phase) :
    Creating groupFolder ownerUserId phase' := by
  rcases hturn.phase? task with
    hsame | ⟨hnew, -⟩ | ⟨failure, phase₁, phase₁', rfl, h₁, -, h₁', hcase⟩
  · rw [hsame, hphase] at hphase'
    obtain rfl := Option.some.inj hphase'
    exact hcreating
  · rw [← phase?_eq_none, hphase] at hnew
    cases hnew
  · obtain rfl := Option.some.inj (hphase.symm.trans h₁)
    obtain rfl := Option.some.inj (hphase'.symm.trans h₁')
    rcases hcase with ⟨rfl, -⟩ | ⟨hget, u, hresumed⟩
    · exact .cancelled
    · cases hcreating with
      | @starting record bridge group owner =>
        subst owner
        cases hresumed with
        | createFailed => exact .raised
        | createGone gone =>
          refine h.answer group (hundisturbed groupFolder record ?_)
          simp [answering, hget, gone]
        | createStarted found => exact .persisting group rfl
      | closing group owner =>
        cases hresumed with
        | closeFailed => exact .raised
        | bridgeClosed => exact .persisting group owner
      | @persisting record job group owner =>
        subst owner
        cases hresumed with
        | persisted done =>
          refine h.answer group (hundisturbed groupFolder record ?_)
          simp [answering, hget, done]
      | returned | raised | cancelled => cases hresumed

/-! ## Where creations come from -/

/-- A creation that has not answered yet. -/
inductive Awaiting (groupFolder ownerUserId : String) : TaskPhase → Prop
  | starting {record : TerminalSessionRecord} {bridge : ℕ} (owner : record.ownerUserId = ownerUserId) :
      Awaiting groupFolder ownerUserId (.startingNew groupFolder record bridge)
  | closing {record : TerminalSessionRecord} {snapshot : TerminalSessionHistorySnapshot}
      (owner : record.ownerUserId = ownerUserId) :
      Awaiting groupFolder ownerUserId (.closingBridge snapshot (.created groupFolder record))
  | persisting {record : TerminalSessionRecord} {job : ℕ}
      (owner : record.ownerUserId = ownerUserId) :
      Awaiting groupFolder ownerUserId (.persisting job (.created groupFolder record))

/-- The task of a call of `create_session` in the run. -/
def Begun (init : TerminalSessionService) (l : List Action) (task : ℕ)
    (groupFolder ownerUserId : String) : Prop :=
  ∃ l₁ a l₂ u, l = l₁ ++ a :: l₂ ∧ IsCreation a groupFolder ownerUserId ∧
    Run step Fresh init l₁ u ∧ task = u.tasks.size

/-- A call that is awaiting its answer is a creation. -/
theorem Called.awaiting {a : Action} {phase : TaskPhase} (h : Called s a phase u)
    {groupFolder ownerUserId : String} (hphase : Awaiting groupFolder ownerUserId phase) :
    IsCreation a groupFolder ownerUserId ∧ u.tasks.size = s.tasks.size := by
  have hsize : (∀ i managed, s.target a ≠ some (i, managed, .detach)) →
      u.tasks.size = s.tasks.size := by
    intro hne
    rcases h.phase? with ⟨-, hsize⟩ | ⟨⟨i, managed, htarget⟩, -⟩
    · exact hsize
    · exact absurd htarget (hne i managed)
  cases h with
  | idle done => cases hphase <;> cases done
  | @created groupId _ _ sessionId containerName =>
    cases hphase with
    | starting owner =>
      subst owner
      exact ⟨⟨groupId, .container, sessionId, .ok containerName, rfl⟩,
        hsize fun _ _ h => by cases h⟩
  | @closed _ i managed =>
    unfold closeWith at hphase
    cases hb : managed.bridge with
    | none =>
      rw [hb] at hphase
      cases hphase
    | some bridge =>
      rw [hb] at hphase
      cases hphase
  | put | createRaised | attached | attachRaised | reopened | detached | output | exited =>
    cases hphase

/-- A turn after which a creation awaits its answer is one of the creation. -/
theorem Resumed.awaiting {failure : Option String} {phase phase' : TaskPhase}
    (h : Resumed s failure phase phase' u) {groupFolder ownerUserId : String}
    (hphase : Awaiting groupFolder ownerUserId phase') :
    Awaiting groupFolder ownerUserId phase := by
  cases h with
  | createStarted found =>
    cases hphase with
    | persisting owner => exact .starting owner
  | bridgeClosed =>
    cases hphase with
    | persisting owner => exact .closing owner
  | @persisted _ _ next done => cases next <;> cases hphase
  | @expired _ _ _ i managed =>
    unfold closeWith at hphase
    cases hb : managed.bridge with
    | none =>
      rw [hb] at hphase
      cases hphase
    | some bridge =>
      rw [hb] at hphase
      cases hphase
  | _ => cases hphase

/-- **Creations** that await their answer have begun in the run. -/
theorem begun_of_awaiting {l : List Action} (h : Run step Fresh init l t)
    (hinit : init.tasks = ∅) {task : ℕ} {phase : TaskPhase} {groupFolder ownerUserId : String}
    (hphase : t.phase? task = some phase) (hawaiting : Awaiting groupFolder ownerUserId phase) :
    Begun init l task groupFolder ownerUserId := by
  induction h generalizing phase with
  | nil =>
    rw [TerminalSessionService.phase?, hinit] at hphase
    cases hphase
  | @snoc s t l a hrun _ hstep ih =>
    have hlater : ∀ {phase}, s.phase? task = some phase →
        Awaiting groupFolder ownerUserId phase → Begun init (l ++ [a]) task groupFolder
          ownerUserId := by
      intro phase hs hawaiting
      obtain ⟨l₁, a', l₂, u, rfl, hrest⟩ := ih hs hawaiting
      exact ⟨l₁, a', l₂ ++ [a], u, by simp, hrest⟩
    rcases (turn_of_step hstep).phase? task with
      hsame | ⟨-, ⟨sessionId, deadline, hsleep⟩ | ⟨phase₁, u, hcalled, htask, h₁⟩⟩ |
        ⟨failure, phase₁, phase', -, h₁, -, h₁', hcase⟩
    · exact hlater (hsame ▸ hphase) hawaiting
    · obtain rfl := Option.some.inj (hphase.symm.trans hsleep)
      cases hawaiting
    · obtain rfl := Option.some.inj (hphase.symm.trans h₁)
      obtain ⟨hcreation, hsize⟩ := hcalled.awaiting hawaiting
      exact ⟨l, a, [], s, rfl, hcreation, hrun, htask.trans hsize⟩
    · obtain rfl := Option.some.inj (hphase.symm.trans h₁')
      rcases hcase with ⟨rfl, -⟩ | ⟨-, u, hresumed⟩
      · cases hawaiting
      · exact hlater h₁ (hresumed.awaiting hawaiting)

/-- A creation that reads its answer awaits it, and answers with the current session, if any. -/
theorem answering_spec {a : Action} {groupFolder : String} {record : TerminalSessionRecord}
    (h : s.answering a = some (groupFolder, record)) (hstep : s.step a = some t) :
    ∃ task failure phase, a = .resume task failure ∧ s.phase? task = some phase ∧
      Awaiting groupFolder record.ownerUserId phase ∧
      t.phase? task =
        some (.returned (.record ((s.getCurrentSession groupFolder).getD record))) := by
  cases a with
  | resume task failure =>
    obtain ⟨⟨phase, cancelRequested⟩, hget, hread⟩ := Option.bind_eq_some_iff.mp h
    cases cancelRequested with
    | true => cases hread
    | false =>
      have hphase : s.phase? task = some phase := by
        rw [TerminalSessionService.phase?, hget]
        rfl
      obtain ⟨phase', u, hresumed, hphase'⟩ := phase?_resume hget hstep
      simp only [Bool.false_eq_true, if_false] at hread
      split at hread
      · split at hread
        · rename_i hgone
          obtain ⟨rfl, hgone⟩ := hgone
          cases hread
          refine ⟨task, failure, _, rfl, hphase, .starting rfl, ?_⟩
          cases hresumed with
          | createGone => exact hphase'
          | createStarted found =>
            rw [hgone] at found
            cases found
        · cases hread
      · split at hread
        · cases hread
          refine ⟨task, failure, _, rfl, hphase, .persisting rfl, ?_⟩
          cases hresumed with
          | persisted => exact hphase'
        · cases hread
      · cases hread
  | _ => cases h

/-- In a run of a recovered service every creation answers for its caller if and only if every
creation that reads its answer finds no session of another user. -/
theorem answersCaller_iff_found {reconnectTimeoutSeconds : ℕ} {historyMaxBytes : Int}
    {snapshots : List TerminalSessionHistorySnapshot} {l : List Action}
    (h : Run step Fresh
      (recoverActiveSessions reconnectTimeoutSeconds historyMaxBytes snapshots) l t) :
    AnswersCaller (recoverActiveSessions reconnectTimeoutSeconds historyMaxBytes snapshots) l t ↔
      Run step (fun s a => s.Fresh a ∧ s.Undisturbed a)
        (recoverActiveSessions reconnectTimeoutSeconds historyMaxBytes snapshots) l t := by
  have hinit := (inv_recoverActiveSessions reconnectTimeoutSeconds historyMaxBytes snapshots).1
  have htasks := tasks_recoverActiveSessions reconnectTimeoutSeconds historyMaxBytes snapshots
  constructor
  · intro hanswers
    rcases h.exists_violation (C := Undisturbed) with
      hrun | ⟨l₁, a, l₂, v, w, rfl, hrun, ha, hC, hvw, hw⟩
    · exact hrun
    · -- The first disturbed creation answers with a session of another user, for good.
      have hv := hrun.mono fun _ _ h => h.1
      unfold Undisturbed at hC
      simp only [not_forall] at hC
      obtain ⟨groupFolder, record, hanswering, current, hcurrent, howner⟩ := hC
      obtain ⟨task, failure, phase, rfl, hphase, hawaiting, hreturned⟩ :=
        answering_spec hanswering hvw
      obtain ⟨m₁, a', m₂, u, rfl, hcreation, hu, rfl⟩ :=
        begun_of_awaiting hv htasks hphase hawaiting
      rw [Option.mem_def.mp hcurrent] at hreturned
      have hfinal := phase?_of_run hw hreturned rfl
      have hright := hanswers m₁ a' (m₂ ++ .resume u.tasks.size failure :: l₂) u groupFolder
        record.ownerUserId current (by simp) hcreation hu hfinal
      exact absurd hright.1 howner
  · rintro hrun l₁ a l₂ u groupFolder ownerUserId record rfl
      ⟨groupId, requestedMode, sessionId, factory, rfl⟩ hu hreturned
    obtain ⟨u', v, hu', ha, hstep, hvt⟩ := hrun.split_cons
    obtain rfl := hu.unique hu'
    have hinv := inv_of_run (fun _ _ h => h) hinit hu
    -- The call is a creation of its caller, and stays one.
    have hcall := hinv.creating_call groupId groupFolder ownerUserId requestedMode sessionId factory
    obtain ⟨-, phase, hphase, hcreating⟩ := hvt.invariant
      (I := fun v => Inv v ∧ ∃ phase, v.phase? u.tasks.size = some phase ∧
        Creating groupFolder ownerUserId phase)
      ⟨hinv.step ha.1 hstep, _, phase?_create hstep, hcall⟩ fun {x y b} hx hb hxy => by
        obtain ⟨hxinv, phase, hphase, hcreating⟩ := hx
        have hturn := turn_of_step hxy
        obtain ⟨phase', hphase'⟩ := hturn.phase?_some hphase
        exact ⟨hxinv.step hb.1 hxy, phase', hphase',
          hxinv.creating_turn hb.2 hturn hphase hphase' hcreating⟩
    rw [hreturned] at hphase
    obtain rfl := Option.some.inj hphase
    cases hcreating with
    | returned group owner => exact ⟨owner, group⟩

/-! ## Whose session a workspace has -/

/-- The workspace has no session, or one that has ended. -/
def Vacant (s : TerminalSessionService) (groupFolder : String) : Prop :=
  ∀ entry ∈ s.sessionOfGroup groupFolder, entry.2.record.status.isTerminal = true

/-- A creation for a vacant workspace: what session there was is dropped. -/
inductive Replaces (s : TerminalSessionService) (groupFolder : String) : Action → Prop
  | create {groupId ownerUserId sessionId : String} {factory : Except String (Option String)}
      (vacant : s.Vacant groupFolder) :
      Replaces s groupFolder
        (.create groupId groupFolder ownerUserId .container sessionId factory)

/-- A creation for a vacant workspace whose bridge factory makes a bridge: the workspace gets a
session of the user. -/
inductive Installs (s : TerminalSessionService) (groupFolder ownerUserId : String) : Action → Prop
  | create {groupId sessionId : String} {containerName : Option String}
      (vacant : s.Vacant groupFolder) :
      Installs s groupFolder ownerUserId
        (.create groupId groupFolder ownerUserId .container sessionId (.ok containerName))

/-- The user whose session the workspace has. -/
def holder (s : TerminalSessionService) (groupFolder : String) : Option String :=
  (s.getCurrentSession groupFolder).map fun record => record.ownerUserId

theorem createSession_of_vacant {groupFolder : String} (h : s.Vacant groupFolder)
    (groupId ownerUserId sessionId : String) (factory : Except String (Option String)) :
    ∃ u, Vacated s groupFolder u ∧
      s.createSession groupId groupFolder ownerUserId .container sessionId factory =
        u.openSession groupId groupFolder ownerUserId .dockerContainer sessionId factory := by
  unfold createSession
  simp only [resolveBackend]
  cases hfound : s.sessionOfGroup groupFolder with
  | none => exact ⟨s, .free hfound, rfl⟩
  | some entry =>
    have hended := h entry hfound
    exact ⟨_, .drop hfound hended, if_pos hended⟩

/-- Every other creation has its answer at once, and changes nothing. -/
theorem createSession_of_not_replaces {groupId groupFolder ownerUserId sessionId : String}
    {requestedMode : TerminalRequestedMode} {factory : Except String (Option String)}
    (h : ¬ s.Replaces groupFolder
      (.create groupId groupFolder ownerUserId requestedMode sessionId factory)) :
    ∃ phase, s.createSession groupId groupFolder ownerUserId requestedMode sessionId factory =
      (phase, s) ∧ phase.isDone = true := by
  unfold createSession
  cases requestedMode with
  | host | openai => exact ⟨_, rfl, rfl⟩
  | container =>
    simp only [resolveBackend]
    cases hfound : s.sessionOfGroup groupFolder with
    | none =>
      refine absurd (.create fun entry hentry => ?_) h
      rw [hfound] at hentry
      cases hentry
    | some entry =>
      have hlive : ¬ entry.2.record.status.isTerminal = true := by
        intro hended
        refine h (.create fun entry' hentry => ?_)
        obtain rfl := Option.some.inj (hfound.symm.trans hentry)
        exact hended
      simp only [if_neg hlive]
      split
      · exact ⟨_, rfl, rfl⟩
      · exact ⟨_, rfl, rfl⟩

theorem holder_eq_none {groupFolder : String} (h : s.sessionsByGroup.get? groupFolder = none) :
    s.holder groupFolder = none := by
  simp [holder, getCurrentSession, sessionOfGroup, h]

theorem holder_eq_some {groupFolder : String} {i : ℕ} {managed : ManagedTerminalSession}
    (h : s.sessionsByGroup.get? groupFolder = some i) (hi : s.sessions.get? i = some managed) :
    s.holder groupFolder = some managed.record.ownerUserId := by
  simp [holder, getCurrentSession, sessionOfGroup, h, hi]

/-- The owner of a session never changes. -/
theorem Inv.holder_congr (h : Inv s) (hextends : Extends s t) {groupFolder : String}
    (hgroup : t.sessionsByGroup.get? groupFolder = s.sessionsByGroup.get? groupFolder) :
    t.holder groupFolder = s.holder groupFolder := by
  cases hs : s.sessionsByGroup.get? groupFolder with
  | none => rw [holder_eq_none hs, holder_eq_none (hgroup.trans hs)]
  | some i =>
    obtain ⟨managed, hi, -, -⟩ := h.by_group groupFolder i hs
    obtain ⟨managed', hi', hid⟩ := hextends i managed hi
    rw [holder_eq_some hs hi, holder_eq_some (hgroup.trans hs) hi', (identity_eq_iff.mp hid).2.2]

/-- Where a session makes room, the other workspaces keep theirs. -/
theorem Inv.sessionsByGroup_vacated (h : Inv s) {groupFolder other : String}
    (hvacated : Vacated s groupFolder u) (hne : other ≠ groupFolder) :
    u.sessionsByGroup.get? other = s.sessionsByGroup.get? other := by
  cases hvacated with
  | free => rfl
  | @drop i managed found ended =>
    obtain ⟨hg, hi⟩ := sessionOfGroup_eq_some.mp found
    obtain ⟨m, hm, hfolder, -⟩ := h.by_group groupFolder i hg
    obtain rfl := Option.some.inj (hm.symm.trans hi)
    rw [(frame_dropSession i m s).sessionsByGroup, Dict.get?_erase, hfolder, if_neg hne]

/-- **A step that replaces nothing** leaves the workspace with a session of the same user. -/
theorem Inv.holder_step (h : Inv s) {a : Action} {groupFolder : String}
    (hreplaces : ¬ s.Replaces groupFolder a) (hstep : s.step a = some t) :
    t.holder groupFolder = s.holder groupFolder := by
  refine h.holder_congr (h.extends_step hstep) ?_
  cases hcreate : a.isCreate with
  | false => rw [(sameIdentities_step h hcreate hstep).2.2]
  | true =>
    cases a with
    | create groupId other ownerUserId requestedMode sessionId factory =>
      by_cases hother : groupFolder = other
      · subst hother
        obtain ⟨phase, heq, -⟩ := createSession_of_not_replaces hreplaces
        obtain rfl := Option.some.inj hstep
        rw [heq]
        rfl
      · rcases step_create hstep with hframe | ⟨u, hu, hframe | ⟨managed, hm, hframe⟩⟩
        · rw [hframe.sessionsByGroup]
        · rw [hframe.sessionsByGroup, h.sessionsByGroup_vacated hu hother]
        · rw [hframe.sessionsByGroup, ← h.sessionsByGroup_vacated hu hother]
          show (u.sessionsByGroup.insert managed.record.groupFolder u.sessions.size).get? _ = _
          rw [Dict.get?_insert, hm.groupFolder, if_neg hother]
    | _ => cases hcreate

/-- **A step that installs a session** leaves the workspace with one of its user. -/
theorem holder_installs {a : Action} {groupFolder ownerUserId : String}
    (hinstalls : s.Installs groupFolder ownerUserId a) (hstep : s.step a = some t) :
    t.holder groupFolder = some ownerUserId := by
  cases hinstalls with
  | @create groupId sessionId containerName vacant =>
    obtain ⟨u, -, heq⟩ :=
      createSession_of_vacant vacant groupId ownerUserId sessionId (.ok containerName)
    obtain rfl := Option.some.inj hstep
    rw [heq]
    let managed : ManagedTerminalSession :=
      { record := u.newRecord groupId groupFolder ownerUserId sessionId .dockerContainer
          containerName
        bridge := some u.bridges.size }
    have hgroup : (call (u.openSession groupId groupFolder ownerUserId .dockerContainer sessionId
        (.ok containerName))).sessionsByGroup.get? groupFolder = some u.sessions.size := by
      simp [call, openSession]
    have hsession : (call (u.openSession groupId groupFolder ownerUserId .dockerContainer sessionId
        (.ok containerName))).sessions.get? u.sessions.size = some managed := by
      simp [call, openSession, newRecord, managed]
    exact holder_eq_some hgroup hsession

theorem Inv.holder_replaces (h : Inv s) {a : Action} {groupFolder : String}
    (hreplaces : s.Replaces groupFolder a) (hstep : s.step a = some t) :
    t.holder groupFolder = none ∨ ∃ ownerUserId, s.Installs groupFolder ownerUserId a := by
  cases hreplaces with
  | @create groupId ownerUserId sessionId factory vacant =>
    cases factory with
    | ok containerName => exact .inr ⟨ownerUserId, .create vacant⟩
    | error message =>
      obtain ⟨u, hu, heq⟩ :=
        createSession_of_vacant vacant groupId ownerUserId sessionId (.error message)
      obtain rfl := Option.some.inj hstep
      rw [heq]
      exact .inl (holder_eq_none (h.vacated hu).2.1)

/-- A creation that awaits its answer later has installed a session. -/
theorem installs_of_awaiting {a : Action} {groupFolder ownerUserId : String}
    (hcreation : IsCreation a groupFolder ownerUserId) (hstep : s.step a = some t)
    {l : List Action} (hrun : Run step Fresh t l u) {phase : TaskPhase}
    (hphase : u.phase? s.tasks.size = some phase) (hwaiting : phase.isDone = false) :
    s.Installs groupFolder ownerUserId a := by
  obtain ⟨groupId, requestedMode, sessionId, factory, rfl⟩ := hcreation
  -- A call that is done after its first turn is done for good.
  have hfirst : (s.createSession groupId groupFolder ownerUserId requestedMode sessionId
      factory).1.isDone = false := by
    by_contra hdone
    rw [Bool.not_eq_false] at hdone
    rw [phase?_of_run hrun (phase?_create hstep) hdone] at hphase
    obtain rfl := Option.some.inj hphase
    rw [hdone] at hwaiting
    cases hwaiting
  by_cases hreplaces : s.Replaces groupFolder
      (.create groupId groupFolder ownerUserId requestedMode sessionId factory)
  · cases hreplaces with
    | create vacant =>
      cases factory with
      | ok containerName => exact .create vacant
      | error message =>
        obtain ⟨u, -, heq⟩ :=
          createSession_of_vacant vacant groupId ownerUserId sessionId (.error message)
        rw [heq] at hfirst
        cases hfirst
  · obtain ⟨phase, heq, hdone⟩ := createSession_of_not_replaces hreplaces
    rw [heq] at hfirst
    rw [hdone] at hfirst
    cases hfirst

/-! ## Calls that are overtaken -/

/-- A call of `create_session` is overtaken: while it is suspended another user's creation finds the
workspace vacant and installs a session, and no later creation finds it vacant before the call reads
its answer. -/
inductive Overtaken (init : TerminalSessionService) : List Action → Prop
  | mk {l₁ l₂ l₃ l₄ : List Action} {a b : Action} {failure : Option String}
      {u v v' w : TerminalSessionService} {groupFolder ownerUserId otherUserId : String}
      {record : TerminalSessionRecord}
      (called : IsCreation a groupFolder ownerUserId) (before : Run step Fresh init l₁ u)
      (suspended : Run step Fresh init (l₁ ++ a :: l₂) v)
      (installs : v.Installs groupFolder otherUserId b) (other : otherUserId ≠ ownerUserId)
      (installed : v.step b = some v')
      (last : Run step (fun s a => s.Fresh a ∧ ¬ s.Replaces groupFolder a) v' l₃ w)
      (answers : w.answering (.resume u.tasks.size failure) = some (groupFolder, record)) :
      Overtaken init (l₁ ++ a :: (l₂ ++ b :: (l₃ ++ .resume u.tasks.size failure :: l₄)))

/-- Between two states of a run nothing replaced the session of a workspace. -/
theorem holder_of_run (h : Inv s) {groupFolder : String} {l : List Action}
    (hrun : Run step (fun s a => s.Fresh a ∧ ¬ s.Replaces groupFolder a) s l t) :
    t.holder groupFolder = s.holder groupFolder := by
  obtain ⟨-, hholder⟩ := hrun.invariant
    (I := fun t => Inv t ∧ t.holder groupFolder = s.holder groupFolder) ⟨h, rfl⟩
    fun ht ha hstep => ⟨ht.1.step ha.1 hstep, (ht.1.holder_step ha.2 hstep).trans ht.2⟩
  exact hholder

theorem Awaiting.not_done {groupFolder ownerUserId : String} {phase : TaskPhase}
    (h : Awaiting groupFolder ownerUserId phase) : phase.isDone = false := by
  cases h <;> rfl

/-- A call that is overtaken answers with a record of the other user. -/
theorem Overtaken.not_answersCaller {l : List Action} (hovertaken : Overtaken init l)
    (hinit : Inv init) (h : Run step Fresh init l t) : ¬ AnswersCaller init l t := by
  intro hanswers
  cases hovertaken with
  | @mk l₁ l₂ l₃ l₄ a b failure u v v' w groupFolder ownerUserId otherUserId record called before
      suspended installs other installed last answers =>
    obtain ⟨v₁, v₂, hv₁, hb, hstep, hrest⟩ := Run.split_cons (l := l₁ ++ a :: l₂) (by simpa using h)
    obtain rfl := suspended.unique hv₁
    obtain rfl := Option.some.inj (hstep.symm.trans installed)
    obtain ⟨w₁, x, hw₁, -, hanswer, hx⟩ := hrest.split_cons
    obtain rfl := last.unique hw₁
    have hinv : Inv v₂ := (inv_of_run (fun _ _ h => h) hinit suspended).step hb installed
    have hholder := (holder_of_run hinv last).trans (holder_installs installs installed)
    obtain ⟨current, hcurrent, howner⟩ := Option.map_eq_some_iff.mp hholder
    -- The call finds this session, and answers with it for good.
    obtain ⟨task, failure', phase, heq, hphase, -, hreturned⟩ := answering_spec answers hanswer
    cases heq
    rw [hcurrent] at hreturned
    have hright := hanswers l₁ a (l₂ ++ b :: (l₃ ++ .resume u.tasks.size failure :: l₄)) u
      groupFolder ownerUserId current rfl called before (phase?_of_run hx hreturned rfl)
    exact other (howner.symm.trans hright.1)

/-- A call that finds a session of another user is overtaken. -/
theorem overtaken_of_found {l l' : List Action} {c : Action} (hinit : Inv init)
    (htasks : init.tasks = ∅) (h : Run step Fresh init l s) (hstep : s.step c = some t)
    (hfound : ¬ s.Undisturbed c) : Overtaken init (l ++ c :: l') := by
  unfold Undisturbed at hfound
  simp only [not_forall] at hfound
  obtain ⟨groupFolder, record, hanswering, current, hcurrent, howner⟩ := hfound
  have hholder : s.holder groupFolder = some current.ownerUserId := by
    rw [holder, Option.mem_def.mp hcurrent, Option.map_some]
  -- The call had installed a session of its own user.
  obtain ⟨task, failure, phase, rfl, hphase, hawaiting, -⟩ := answering_spec hanswering hstep
  obtain ⟨l₁, a, m, u, rfl, hcreation, hu, rfl⟩ := begun_of_awaiting h htasks hphase hawaiting
  obtain ⟨u₁, u', hu₁, ha, hcall, hrest⟩ := h.split_cons
  obtain rfl := hu.unique hu₁
  have hinv : Inv u' := (inv_of_run (fun _ _ h => h) hinit hu).step ha hcall
  have hown := holder_installs
    (installs_of_awaiting hcreation hcall hrest hphase hawaiting.not_done) hcall
  -- It has been replaced, for the last time by the one that is found.
  rcases hrest.exists_last_violation (C := fun s a => ¬ s.Replaces groupFolder a) with
    hkept | ⟨l₂, b, l₃, v, v', rfl, hv, hb, hreplaces, hvv', hlast⟩
  · rw [holder_of_run hinv hkept, hown] at hholder
    exact absurd (Option.some.inj hholder).symm howner
  · have hinv' : Inv v := inv_of_run (fun _ _ h => h) hinv hv
    rw [holder_of_run (hinv'.step hb hvv') hlast] at hholder
    rcases hinv'.holder_replaces (not_not.mp hreplaces) hvv' with hnone | ⟨other, hinstalls⟩
    · rw [hnone] at hholder
      cases hholder
    · obtain rfl := Option.some.inj ((holder_installs hinstalls hvv').symm.trans hholder)
      have hovertaken : Overtaken init
          (l₁ ++ a :: (l₂ ++ b :: (l₃ ++ .resume u.tasks.size failure :: l'))) :=
        .mk hcreation hu (hu.append ((Run.single ha hcall).append hv)) hinstalls howner hvv' hlast
          hanswering
      simpa using hovertaken

/-- **The answers of creations.** In a run of a recovered service every creation answers for its
caller if and only if none is overtaken. -/
theorem answersCaller_iff_not_overtaken {reconnectTimeoutSeconds : ℕ} {historyMaxBytes : Int}
    {snapshots : List TerminalSessionHistorySnapshot} {l : List Action}
    (h : Run step Fresh
      (recoverActiveSessions reconnectTimeoutSeconds historyMaxBytes snapshots) l t) :
    AnswersCaller (recoverActiveSessions reconnectTimeoutSeconds historyMaxBytes snapshots) l t ↔
      ¬ Overtaken (recoverActiveSessions reconnectTimeoutSeconds historyMaxBytes snapshots) l := by
  have hinit := (inv_recoverActiveSessions reconnectTimeoutSeconds historyMaxBytes snapshots).1
  have htasks := tasks_recoverActiveSessions reconnectTimeoutSeconds historyMaxBytes snapshots
  constructor
  · intro hanswers hovertaken
    exact hovertaken.not_answersCaller hinit h hanswers
  · intro hovertaken
    rw [answersCaller_iff_found h]
    rcases h.exists_violation (C := Undisturbed) with
      hrun | ⟨l₁, c, l₂, v, w, rfl, hrun, -, hfound, hvw, -⟩
    · exact hrun
    · have hv := hrun.mono fun _ _ h => h.1
      exact absurd (overtaken_of_found hinit htasks hv hvw hfound) hovertaken

theorem answersCaller_iff_not_overtaken_succeeding : ∃ t,
    Run step Fresh (recoverActiveSessions 30 32768 []) succeedingRun t ∧
    (AnswersCaller (recoverActiveSessions 30 32768 []) succeedingRun t ↔
      ¬ Overtaken (recoverActiveSessions 30 32768 []) succeedingRun) := by
  have h : Run step Fresh (recoverActiveSessions 30 32768 []) succeedingRun _ :=
    .of_execute (by decide)
  exact ⟨_, h, answersCaller_iff_not_overtaken h⟩

/-- Alice's session is closed while its first snapshot is written, and Bob makes the next one of
the workspace: the creation of Alice answers with the session of Bob. -/
def replacedRun : List Action :=
  [.create "home" "home" "alice" .container "a" (.ok none), .resume 0 none, .forceClose "home",
    .create "home" "home" "bob" .container "b" (.ok none), .write 0 false, .resume 0 none]

theorem exists_foreign_answer :
    ∃ t, Run step Fresh (recoverActiveSessions 30 32768 []) replacedRun t ∧
      ¬ AnswersCaller (recoverActiveSessions 30 32768 []) replacedRun t := by
  have h : Run step Fresh (recoverActiveSessions 30 32768 []) replacedRun _ :=
    .of_execute (by decide)
  refine ⟨_, h, fun hanswers => ?_⟩
  -- The answer of the first task is Bob's record.
  have hphase : ((execute step Fresh (recoverActiveSessions 30 32768 []) replacedRun).get
      (by decide)).phase? 0 = some (.returned (.record
        { sessionId := "b", groupId := "home", groupFolder := "home", ownerUserId := "bob",
          status := .created, createdAt := 0 })) := by decide
  have hright := hanswers [] _ _ _ "home" "alice" _ rfl
    ⟨"home", .container, "a", .ok none, rfl⟩ .nil hphase
  exact absurd hright.1 (by decide)

end TerminalSessionService

end Portex
