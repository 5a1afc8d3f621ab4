import Portex.Terminal.Invariant
import Portex.Terminal.Turns
import Portex.Foundation.Journal

/-!
# The snapshots and their files

A snapshot is taken under the lock, where a session changes, and written later by a thread, to the
`latest.json` of its workspace and, once the session has ended, to the archive of the session. In
between it is pending: a call holds it while a bridge starts or closes, and then a persist job
carries it.

## Main definitions

* `HistoryFile`, `content`: the files, and what they hold
* `taken`, `wrote`, `lost`: the snapshot that a step takes, writes or drops
* `Pending`: the snapshots that are still to be written

## Main results

* `Inv.persistStep`: what a step does to the snapshots
-/

namespace Portex

open Foundation

inductive HistoryFile
  | latest (groupFolder : String)
  | archive (groupFolder sessionId : String)
  deriving DecidableEq

/-- The files that `_persist_history_snapshot` writes a snapshot to. -/
def TerminalSessionHistorySnapshot.files (snapshot : TerminalSessionHistorySnapshot) :
    List HistoryFile :=
  .latest snapshot.record.groupFolder ::
    if snapshot.record.status.isTerminal then
      [.archive snapshot.record.groupFolder snapshot.record.sessionId]
    else []

/-- The snapshot that a call holds while a bridge starts or closes. -/
def TaskPhase.holding : TaskPhase → Option TerminalSessionHistorySnapshot
  | startingAgain _ _ _ snapshot | closingBridge snapshot _ => some snapshot
  | _ => none

/-- The session that `create_session` takes a snapshot of after `bridge.start`. -/
def TaskPhase.creating : TaskPhase → Option String
  | startingNew _ record _ => some record.sessionId
  | _ => none

/-- An attach whose bridge factory raises takes no snapshot. -/
def Effect.isPersisted : Effect → Bool
  | attachRaising _ => false
  | _ => true

namespace TerminalSessionService

variable {s t u : TerminalSessionService} {a : Action}

/-- What a history file holds of the snapshots written by this service. -/
def content (s : TerminalSessionService) (file : HistoryFile) :
    Option TerminalSessionHistorySnapshot :=
  last TerminalSessionHistorySnapshot.files file s.written

/-- The snapshot that `create_session` takes after `bridge.start`. -/
def announced (s : TerminalSessionService) : Action → Option TerminalSessionHistorySnapshot
  | .resume task none => ((s.tasks.get? task).filter fun t => !t.cancelRequested).bind fun t =>
    t.phase.creating.bind fun sessionId => (s.session sessionId).map fun entry =>
      s.buildHistorySnapshot entry.2
  | _ => none

/-- The snapshot that a step takes: the session it has assigned to, as it is then. -/
def taken (s : TerminalSessionService) (a : Action) : Option TerminalSessionHistorySnapshot :=
  match s.target a with
  | none => s.announced a
  | some (i, _, effect) =>
    if effect.isPersisted then
      (s.step a).bind fun t => (t.sessions.get? i).map fun managed => s.buildHistorySnapshot managed
    else none

/-- The snapshot of a job that is to be written. -/
def carried (s : TerminalSessionService) (job : ℕ) : Option TerminalSessionHistorySnapshot :=
  ((s.jobs.get? job).filter fun j => !j.done).map PersistJob.snapshot

/-- The snapshot that a step writes to its files. -/
def wrote (s : TerminalSessionService) : Action → Option TerminalSessionHistorySnapshot
  | .write job false => s.carried job
  | _ => none

/-- The snapshot that a step drops: its write fails, or the call that holds it is cancelled or its
bridge raises. -/
def lost (s : TerminalSessionService) : Action → Option TerminalSessionHistorySnapshot
  | .write job true => s.carried job
  | .resume task failure =>
    ((s.tasks.get? task).filter fun t => t.cancelRequested || failure.isSome).bind fun t =>
      t.phase.holding
  | _ => none

/-- The snapshot is still to be written. -/
def Pending (s : TerminalSessionService) (snapshot : TerminalSessionHistorySnapshot) : Prop :=
  (∃ job, s.carried job = some snapshot) ∨ ∃ task, s.watch TaskPhase.holding task = some snapshot

/-- All persist jobs have finished, and no call has one to start. -/
structure Settled (s : TerminalSessionService) : Prop where
  jobs : ∀ job ∈ s.jobs.cells, job.done = true
  tasks : ∀ task ∈ s.tasks.cells, task.phase.holding = none

theorem Settled.not_pending (h : Settled s) (snapshot : TerminalSessionHistorySnapshot) :
    ¬ s.Pending snapshot := by
  rintro (⟨job, hjob⟩ | ⟨task, htask⟩)
  · obtain ⟨j, hj, -⟩ := Option.map_eq_some_iff.mp hjob
    obtain ⟨hget, hdone⟩ := Option.filter_eq_some_iff.mp hj
    simp [h.jobs j (List.mem_of_getElem? hget)] at hdone
  · obtain ⟨phase, hphase, hholding⟩ := Option.bind_eq_some_iff.mp htask
    obtain ⟨t, hget, rfl⟩ := Option.map_eq_some_iff.mp hphase
    rw [h.tasks t (List.mem_of_getElem? hget)] at hholding
    cases hholding

/-! ## Steps -/

/-- What a step does to the snapshots. -/
structure PersistStep (s : TerminalSessionService) (a : Action) (t : TerminalSessionService) :
    Prop where
  written : t.written = s.written ++ (s.wrote a).toList
  pending : ∀ snapshot, s.wrote a = some snapshot → s.Pending snapshot
  taken : ∀ snapshot, s.taken a = some snapshot → t.Pending snapshot
  kept : ∀ snapshot, s.Pending snapshot →
    t.Pending snapshot ∨ s.wrote a = some snapshot ∨ s.lost a = some snapshot
  only : ∀ snapshot, t.Pending snapshot → s.Pending snapshot ∨ s.taken a = some snapshot

/-- A snapshot goes to the call that holds it, or to a new job. -/
inductive Placed (jobs : Heap PersistJob) :
    Option TerminalSessionHistorySnapshot → Option TerminalSessionHistorySnapshot →
      Heap PersistJob → Prop
  | held (snapshot : Option TerminalSessionHistorySnapshot) : Placed jobs snapshot snapshot jobs
  | job (snapshot : TerminalSessionHistorySnapshot) :
      Placed jobs (some snapshot) none (jobs.alloc { snapshot })

theorem carried_congr (h : t.jobs = s.jobs) (job : ℕ) : t.carried job = s.carried job := by
  rw [carried, carried, h]

theorem carried_alloc {snapshot : TerminalSessionHistorySnapshot}
    (h : t.jobs = s.jobs.alloc { snapshot }) (job : ℕ) :
    t.carried job = if job = s.jobs.size then some snapshot else s.carried job := by
  rw [carried, carried, h, Heap.get?_alloc]
  split <;> rfl

/-- A turn of the task `k`, which held `held` and holds `held'` now. -/
theorem PersistStep.of_placed (k : ℕ) (snapshot held' : Option TerminalSessionHistorySnapshot)
    (hwritten : t.written = s.written) (hwrote : s.wrote a = none)
    (hwatch : t.watch TaskPhase.holding = Function.update (s.watch TaskPhase.holding) k held')
    (hplaced : Placed s.jobs snapshot held' t.jobs)
    (hsource : ∀ x, snapshot = some x →
      s.watch TaskPhase.holding k = some x ∨ s.taken a = some x)
    (htaken : ∀ x, s.taken a = some x → snapshot = some x)
    (hheld : ∀ x, s.watch TaskPhase.holding k = some x →
      snapshot = some x ∨ s.lost a = some x) : PersistStep s a t := by
  have hother : ∀ task, task ≠ k →
      t.watch TaskPhase.holding task = s.watch TaskPhase.holding task := by
    intro task htask
    rw [hwatch, Function.update_of_ne htask]
  have hself : t.watch TaskPhase.holding k = held' := by rw [hwatch, Function.update_self]
  -- The snapshot is where it was placed, and the jobs before it are still there.
  have hnew : ∀ x, snapshot = some x → t.Pending x := by
    intro x hx
    generalize hjobs : t.jobs = jobs at hplaced
    cases hplaced with
    | held => exact .inr ⟨k, hself.trans hx⟩
    | job y =>
      refine .inl ⟨s.jobs.size, ?_⟩
      rw [carried_alloc hjobs, if_pos rfl, hx]
  have hjob : ∀ job x, s.carried job = some x → t.carried job = some x := by
    intro job x hx
    generalize hjobs : t.jobs = jobs at hplaced
    cases hplaced with
    | held => rw [carried_congr hjobs, hx]
    | job y =>
      obtain ⟨j, hj, -⟩ := Option.map_eq_some_iff.mp hx
      have hlt := Heap.lt_size_of_get? (Option.filter_eq_some_iff.mp hj).1
      rw [carried_alloc hjobs, if_neg (Nat.ne_of_lt hlt), hx]
  have hold : ∀ x, t.Pending x → s.Pending x ∨ snapshot = some x := by
    rintro x (⟨job, hx⟩ | ⟨task, hx⟩)
    · generalize hjobs : t.jobs = jobs at hplaced
      cases hplaced with
      | held => exact .inl (.inl ⟨job, carried_congr hjobs job ▸ hx⟩)
      | job y =>
        rw [carried_alloc hjobs] at hx
        split at hx
        · exact .inr hx
        · exact .inl (.inl ⟨job, hx⟩)
    · by_cases htask : task = k
      · rw [htask, hself] at hx
        generalize hjobs : t.jobs = jobs at hplaced
        cases hplaced with
        | held => exact .inr hx
        | job y => cases hx
      · exact .inl (.inr ⟨task, hother task htask ▸ hx⟩)
  refine ⟨?_, ?_, fun x hx => hnew x (htaken x hx), ?_, ?_⟩
  · rw [hwrote, hwritten, Option.toList_none, List.append_nil]
  · intro x hx
    rw [hwrote] at hx
    cases hx
  · rintro x (⟨job, hx⟩ | ⟨task, hx⟩)
    · exact .inl (.inl ⟨job, hjob job x hx⟩)
    · by_cases htask : task = k
      · rcases hheld x (htask ▸ hx) with hsnapshot | hlost
        · exact .inl (hnew x hsnapshot)
        · exact .inr (.inr hlost)
      · exact .inl (.inr ⟨task, (hother task htask).trans hx⟩)
  · intro x hx
    rcases hold x hx with hpending | hsnapshot
    · exact .inl hpending
    · rcases hsource x hsnapshot with hheld | htaken
      · exact .inl (.inr ⟨k, hheld⟩)
      · exact .inr htaken

/-! ## The snapshot of a turn -/

/-- A step that assigns to a session takes a snapshot of it. -/
theorem taken_of_target {i : ℕ} {managed managed' : ManagedTerminalSession} {effect : Effect}
    (hstep : s.step a = some t) (htarget : s.target a = some (i, managed, effect))
    (heffect : effect.isPersisted = true) (hi : s.sessions.get? i = some managed)
    (hs : t.sessions = s.sessions.modify i fun _ => managed') :
    s.taken a = some (s.buildHistorySnapshot managed') := by
  have hi' : t.sessions.get? i = some managed' := by
    rw [hs, Heap.get?_modify, if_pos rfl, hi]
    rfl
  simp [taken, htarget, heffect, hstep, hi']

theorem taken_of_not_persisted {i : ℕ} {managed : ManagedTerminalSession} {effect : Effect}
    (htarget : s.target a = some (i, managed, effect)) (heffect : effect.isPersisted = false) :
    s.taken a = none := by
  simp [taken, htarget, heffect]

theorem taken_of_first (htarget : s.target a = none)
    (hfirst : ∀ task failure, a ≠ .resume task failure) : s.taken a = none := by
  unfold taken
  rw [htarget]
  cases a with
  | resume task failure => exact absurd rfl (hfirst task failure)
  | _ => rfl

theorem lost_of_first (hfirst : ∀ task failure, a ≠ .resume task failure)
    (hwrite : ∀ job failed, a ≠ .write job failed) : s.wrote a = none ∧ s.lost a = none := by
  cases a with
  | resume task failure => exact absurd rfl (hfirst task failure)
  | write job failed => exact absurd rfl (hwrite job failed)
  | _ => exact ⟨rfl, rfl⟩

theorem TaskPhase.holding_of_done {phase : TaskPhase} (h : phase.isDone = true) :
    phase.holding = none := by
  cases phase <;> first | rfl | cases h

/-- The snapshot of a close goes to the call while its bridge closes, if there is one. -/
theorem placed_closeWith (i : ℕ) (managed managed' : ManagedTerminalSession) (next : Continuation)
    (tasks : Heap Task) (s : TerminalSessionService) :
    (s.closeWith i managed managed' next tasks).2.written = s.written ∧
      (s.closeWith i managed managed' next tasks).2.sessions =
        (s.sessions.modify i fun _ => managed') ∧
      Placed s.jobs (some (s.buildHistorySnapshot managed'))
        (s.closeWith i managed managed' next tasks).1.holding
        (s.closeWith i managed managed' next tasks).2.jobs := by
  unfold closeWith
  cases managed.bridge with
  | none => exact ⟨rfl, rfl, .job _⟩
  | some bridge => exact ⟨rfl, rfl, .held _⟩

theorem Vacated.persists {groupFolder : String} (h : Vacated s groupFolder u) :
    u.written = s.written ∧ u.jobs = s.jobs := by
  cases h with
  | free => exact ⟨rfl, rfl⟩
  | drop =>
    rw [dropSession_eq]
    exact ⟨rfl, rfl⟩

theorem target_resume {task : ℕ} (failure : Option String) {phase : TaskPhase}
    (hget : s.tasks.get? task = some { phase, cancelRequested := false }) :
    s.target (.resume task failure) = s.phaseTarget failure phase := by
  simp [target, hget]

/-- **Calls** and the snapshots. -/
theorem Inv.persistStep_called (h : Inv s) {phase : TaskPhase} (hcalled : Called s a phase u)
    (hcore : t.core = { u.core with tasks := u.tasks.alloc { phase } })
    (hfirst : ∀ task failure, a ≠ .resume task failure)
    (hwrite : ∀ job failed, a ≠ .write job failed) (hstep : s.step a = some t) :
    PersistStep s a t := by
  obtain ⟨hsize, hwatch⟩ := hcalled.watch TaskPhase.holding hcore fun _ _ => rfl
  obtain ⟨hwrote, hlost⟩ := lost_of_first (s := s) hfirst hwrite
  have hnone := watch_eq_none TaskPhase.holding hsize
  have hwritten : t.written = u.written := congrArg (fun s => s.written) hcore
  have hjobs : t.jobs = u.jobs := congrArg (fun s => s.jobs) hcore
  have hsessions : t.sessions = u.sessions := congrArg (fun s => s.sessions) hcore
  -- The snapshot of the turn is placed.
  have hplace : ∀ {snapshot}, u.written = s.written → s.taken a = snapshot →
      Placed s.jobs snapshot phase.holding u.jobs → PersistStep s a t := by
    intro snapshot hw htaken hplaced
    refine .of_placed _ _ _ (hwritten.trans hw) hwrote hwatch (hjobs ▸ hplaced)
      (fun x hx => .inr (htaken.trans hx)) (fun x hx => htaken ▸ hx) fun x hx => ?_
    rw [hnone] at hx
    cases hx
  have hidle : u.written = s.written → u.jobs = s.jobs → s.target a = none →
      phase.holding = none → PersistStep s a t := by
    intro hw hj htarget hphase
    refine hplace hw (taken_of_first htarget hfirst) ?_
    rw [hj, hphase]
    exact .held none
  -- The session that the turn assigns to.
  have hassign : ∀ {i managed managed' effect}, s.target a = some (i, managed, effect) →
      effect.isPersisted = true → s.sessions.get? i = some managed →
      (u.sessions = s.sessions.modify i fun _ => managed') → u.written = s.written →
      Placed s.jobs (some (s.buildHistorySnapshot managed')) phase.holding u.jobs →
      PersistStep s a t := by
    intro i managed managed' effect htarget heffect hi hs hw hplaced
    exact hplace hw (taken_of_target hstep htarget heffect hi (hsessions.trans hs)) hplaced
  cases hcalled with
  | idle done idle => exact hidle rfl rfl idle.target (TaskPhase.holding_of_done done)
  | @put bridge i event b managed streamEvent get? found immediate =>
    obtain ⟨queues, hput⟩ : ∃ queues, s.put managed.outputQueue streamEvent = { s with queues } := by
      cases managed.outputQueue with
      | none => exact ⟨s.queues, rfl⟩
      | some queue => exact ⟨_, rfl⟩
    rw [hput] at hidle
    refine hidle rfl rfl ?_ rfl
    simp only [target, get?, Option.bind_some, eventTarget, found]
    cases htype : event.type with
    | output =>
      cases hdata : event.data with
      | none => rfl
      | some text => simp [TerminalBridgeEvent.immediate, htype, hdata] at immediate
    | exit => simp [TerminalBridgeEvent.immediate, htype] at immediate
    | error | other => rfl
  | createRaised vacated => exact hidle vacated.persists.1 vacated.persists.2 rfl rfl
  | created vacated => exact hidle vacated.persists.1 vacated.persists.2 rfl rfl
  | @attached _ _ factory i b managed found bridge =>
    exact hassign (by simp [target, attachTarget, found]; rfl) (by rw [bridge]; rfl)
      (session_eq_some.mp (owned_eq_some.mp found).1).2 rfl rfl (.job _)
  | @attachRaised sessionId ownerUserId message i managed found bridge =>
    have htarget : s.target (.attach sessionId ownerUserId (.error message)) =
        some (i, managed, .attachRaising s.queues.size) := by
      simp [target, attachTarget, found, bridge]
    exact hplace rfl (taken_of_not_persisted htarget rfl) (.held none)
  | @reopened _ _ containerName i managed found bridge =>
    exact hassign (by simp [target, attachTarget, found]; rfl) rfl
      (session_eq_some.mp (owned_eq_some.mp found).1).2 rfl rfl (.held _)
  | @detached _ sessionId i deadline managed managed' target found eq =>
    exact hassign target rfl (h.found target).get? rfl rfl (.job _)
  | @closed _ i managed target =>
    obtain ⟨hw, hs, hplaced⟩ := placed_closeWith i managed managed.close (.closed i)
      (s.recalled managed) s
    exact hassign target rfl (h.found target).get? hs hw hplaced
  | @output bridge i event b text managed managed' get? found type data eq =>
    exact hassign (by simp [target, eventTarget, get?, found, type, data]; rfl) rfl
      (session_eq_some.mp found).2 rfl rfl (.job _)
  | @exited bridge i event b managed get? found type =>
    exact hassign (by simp [target, eventTarget, get?, found, type]; rfl) rfl
      (session_eq_some.mp found).2 rfl rfl (.job _)

/-- **Resumptions** and the snapshots. -/
theorem persistStep_resumed {task : ℕ} {failure : Option String} {phase phase' : TaskPhase}
    (hget : s.tasks.get? task = some { phase, cancelRequested := false })
    (hresumed : Resumed s failure phase phase' u)
    (hcore : t.core = (u.setTaskPhase task phase').core)
    (hstep : s.step (.resume task failure) = some t) : PersistStep s (.resume task failure) t := by
  have hwatch := hresumed.watch TaskPhase.holding hget hcore
  have hphase := watch_of_get? TaskPhase.holding hget
  have htarget := target_resume failure hget
  have hwritten : t.written = u.written := congrArg (fun s => s.written) hcore
  have hjobs : t.jobs = u.jobs := congrArg (fun s => s.jobs) hcore
  have hsessions : t.sessions = u.sessions := congrArg (fun s => s.sessions) hcore
  -- A snapshot is taken, and the one that the call held is dropped.
  have htake : ∀ {snapshot}, u.written = s.written → s.taken (.resume task failure) = snapshot →
      Placed s.jobs snapshot phase'.holding u.jobs →
      (phase.holding = none ∨ failure.isSome = true) →
      PersistStep s (.resume task failure) t := by
    intro snapshot hw htaken hplaced hdropped
    refine .of_placed _ _ _ (hwritten.trans hw) rfl hwatch (hjobs ▸ hplaced)
      (fun x hx => .inr (htaken.trans hx)) (fun x hx => htaken ▸ hx) fun x hx => ?_
    rw [hphase] at hx
    rcases hdropped with hnone | hfailure
    · rw [hnone] at hx
      cases hx
    · exact .inr (by simp [lost, hget, hfailure, hx, Option.filter])
  -- The snapshot that the call held goes to a job.
  have hmove : ∀ {snapshot}, u.written = s.written → phase.holding = some snapshot →
      s.taken (.resume task failure) = none → phase'.holding = none →
      u.jobs = s.jobs.alloc { snapshot } → PersistStep s (.resume task failure) t := by
    intro snapshot hw hheld htaken hphase' hj
    refine .of_placed _ (some snapshot) _ (hwritten.trans hw) rfl hwatch ?_
      (fun x hx => .inl (hphase.trans (hheld.trans hx))) (fun x hx => ?_)
      fun x hx => .inl (hheld.symm.trans (hphase.symm.trans hx))
    · rw [hphase', hjobs, hj]
      exact .job snapshot
    · rw [htaken] at hx
      cases hx
  have hannounced : s.phaseTarget failure phase = none →
      s.taken (.resume task failure) = s.announced (.resume task failure) := by
    intro hnone
    rw [taken, htarget, hnone]
  have hidle : s.phaseTarget failure phase = none → phase.creating = none →
      s.taken (.resume task failure) = none := by
    intro hnone hcreating
    rw [hannounced hnone]
    cases failure <;> simp [announced, hget, hcreating, Option.filter]
  cases hresumed with
  | createFailed => exact htake rfl (hannounced rfl) (.held none) (.inl rfl)
  | createGone gone =>
    refine htake rfl ?_ (.held none) (.inl rfl)
    rw [hannounced rfl]
    simp [announced, hget, TaskPhase.creating, gone, Option.filter]
  | @createStarted groupFolder record bridge i managed found =>
    refine htake rfl ?_ (.job (s.buildHistorySnapshot managed)) (.inl rfl)
    rw [hannounced rfl]
    simp [announced, hget, TaskPhase.creating, found, Option.filter]
  | attachGone gone =>
    exact htake rfl (hidle (by simp [phaseTarget, gone]) rfl) (.held none) (.inr rfl)
  | @attachFailed message record queue bridge i snapshot managed found =>
    have hfail : s.phaseTarget (some message) (.startingAgain record queue bridge snapshot) =
        some (i, managed, .failAttach) := by
      simp [phaseTarget, found]
    exact htake rfl (taken_of_target hstep (htarget.trans hfail) rfl (session_eq_some.mp found).2
      hsessions) (.job _) (.inr rfl)
  | attachStarted => exact hmove rfl rfl (hidle rfl rfl) rfl rfl
  | closeFailed => exact htake rfl (hidle rfl rfl) (.held none) (.inr rfl)
  | bridgeClosed => exact hmove rfl rfl (hidle rfl rfl) rfl rfl
  | @persisted _ job next done =>
    have hfinish : (s.finish next).2.written = s.written ∧ (s.finish next).2.jobs = s.jobs ∧
        (s.finish next).1.holding = none := by
      cases next with
      | put queue event => cases queue <;> exact ⟨rfl, rfl, rfl⟩
      | _ => exact ⟨rfl, rfl, rfl⟩
    refine htake hfinish.1 (hidle rfl rfl) ?_ (.inl rfl)
    rw [hfinish.2.1, hfinish.2.2]
    exact .held none
  | awoken still => exact htake rfl (hidle still rfl) (.held none) (.inl rfl)
  | @expired _ sessionId deadline i managed found target =>
    obtain ⟨hw, hs, hplaced⟩ := placed_closeWith i managed managed.expire .expired s.tasks s
    exact htake hw (taken_of_target hstep (htarget.trans target) rfl (session_eq_some.mp found).2
      (hsessions.trans hs)) hplaced (.inl rfl)

/-- A call that is cancelled takes no snapshot. -/
theorem taken_of_cancel {task : ℕ} {failure : Option String} {phase : TaskPhase}
    (hget : s.tasks.get? task = some { phase, cancelRequested := true }) :
    s.taken (.resume task failure) = none := by
  have htarget : s.target (.resume task failure) = none := by simp [target, hget]
  rw [taken, htarget]
  cases failure <;> simp [announced, hget, Option.filter]

/-- A job is finished, and its snapshot written or dropped. -/
theorem persistStep_write {job : ℕ} {failed : Bool} (hstep : s.step (.write job failed) = some t) :
    PersistStep s (.write job failed) t := by
  obtain ⟨snapshot, hget, rfl⟩ := write_of_step hstep
  have hcarried : s.carried job = some snapshot := by simp [carried, hget, Option.filter]
  have hother : ∀ k, k ≠ job → carried { s with
      jobs := s.jobs.modify job fun j => { j with done := true }
      written := if failed then s.written else s.written ++ [snapshot] } k = s.carried k := by
    intro k hk
    simp [carried, hk]
  have hself : carried { s with
      jobs := s.jobs.modify job fun j => { j with done := true }
      written := if failed then s.written else s.written ++ [snapshot] } job = none := by
    simp [carried, hget, Option.filter]
  refine ⟨?_, fun x hx => .inl ⟨job, ?_⟩, fun _ hx => absurd hx (Option.some_ne_none _).symm, ?_, ?_⟩
  · cases failed with
    | true => simp [wrote]
    | false => simp [wrote, hcarried]
  · cases failed with
    | true => cases hx
    | false => exact hx
  · rintro x (⟨k, hx⟩ | ⟨task, hx⟩)
    · by_cases hk : k = job
      · right
        cases failed with
        | true => exact .inr (hk ▸ hx)
        | false => exact .inl (hk ▸ hx)
      · exact .inl (.inl ⟨k, (hother k hk).trans hx⟩)
    · exact .inl (.inr ⟨task, hx⟩)
  · rintro x (⟨k, hx⟩ | ⟨task, hx⟩)
    · by_cases hk : k = job
      · rw [hk, hself] at hx
        cases hx
      · exact .inl (.inl ⟨k, (hother k hk).symm.trans hx⟩)
    · exact .inl (.inr ⟨task, hx⟩)

/-- **Steps** and the snapshots. -/
theorem Inv.persistStep (h : Inv s) (hstep : s.step a = some t) : PersistStep s a t := by
  by_cases hwrite : ∃ job failed, a = .write job failed
  · obtain ⟨job, failed, rfl⟩ := hwrite
    exact persistStep_write hstep
  · have hwrite' : ∀ job failed, a ≠ .write job failed := fun job failed heq =>
      hwrite ⟨job, failed, heq⟩
    cases turn_of_step hstep with
    | call hcalled hcore hfirst => exact h.persistStep_called hcalled hcore hfirst hwrite' hstep
    | @cancel task failure phase hget hrunning =>
      refine .of_placed task none none rfl rfl
        (watch_setTaskPhase _ (Heap.lt_size_of_get? hget)) (.held none) nofun (fun x hx => ?_)
        fun x hx => .inr ?_
      · rw [taken_of_cancel hget] at hx
        cases hx
      · rw [watch_of_get? _ hget] at hx
        simp [lost, hget, hx, Option.filter]
    | resume hget hrunning hresumed hcore => exact persistStep_resumed hget hresumed hcore hstep
    | write => exact absurd rfl (hwrite' _ _)
    | setClock =>
      have hnone := watch_eq_none (s := s) TaskPhase.holding (Nat.le_refl s.tasks.size)
      refine .of_placed s.tasks.size none none rfl rfl ?_ (.held none) nofun nofun fun x hx => ?_
      · rw [← hnone, Function.update_eq_self]
        rfl
      · rw [hnone] at hx
        cases hx

/-! ## Recovery -/

/-- A recovered service has written nothing. -/
theorem persists_recoverActiveSessions (reconnectTimeoutSeconds : ℕ) (historyMaxBytes : Int)
    (snapshots : List TerminalSessionHistorySnapshot) :
    (recoverActiveSessions reconnectTimeoutSeconds historyMaxBytes snapshots).written = [] ∧
      (recoverActiveSessions reconnectTimeoutSeconds historyMaxBytes snapshots).jobs = ∅ := by
  obtain ⟨_, _, _, heq⟩ :=
    recoverActiveSessions_eq reconnectTimeoutSeconds historyMaxBytes snapshots
  rw [heq]
  exact ⟨rfl, rfl⟩

end TerminalSessionService

end Portex
