import Portex.Terminal.Turns
import Portex.Terminal.Invariant

/-!
# The bridges of the terminal session service

A live bridge has a process in its container, and only the session that refers to it can close it.
A creation drops a session that has exited with its bridge, and a `bridge.start` that completes
after `bridge.close` leaves a process that no one refers to.

## Main definitions

* `NoLeak`: every live bridge is that of a session in the maps
* `Retains`: a step drops no live bridge, and completes the start of no bridge without a session
* `BridgeInv`: bridges are made for one session, and started once
* `BridgeStep`: what a step does to the bridges

## Main results

* `noLeak_iff_retains`: the runs without a leak
* `exists_leak`: a run in which a shell exits and its bridge is lost
-/

namespace Portex

open Foundation

/-- `start` has completed, and `close` was not called since. -/
def TerminalBridge.isLive (bridge : TerminalBridge) : Bool := bridge.started && !bridge.closed

/-- The session and the bridge of a call that awaits `bridge.start`. -/
def TaskPhase.starting : TaskPhase → Option (String × ℕ)
  | startingNew _ record bridge | startingAgain record _ bridge _ => some (record.sessionId, bridge)
  | _ => none

namespace TerminalSessionService

variable {s t u : TerminalSessionService}

/-- A session in the maps refers to the bridge. -/
def Referenced (s : TerminalSessionService) (bridge : ℕ) : Prop :=
  ∃ sessionId i managed, s.session sessionId = some (i, managed) ∧ managed.bridge = some bridge

/-- Every live bridge is referred to. -/
def NoLeak (s : TerminalSessionService) : Prop :=
  ∀ bridge b, s.bridges.get? bridge = some b → b.isLive = true → s.Referenced bridge

/-- The bridge whose `start` completes in the step. -/
def startedBridge (s : TerminalSessionService) : Action → Option ℕ
  | .resume task none => ((s.tasks.get? task).filter fun t => !t.cancelRequested).bind fun t =>
    t.phase.starting.map Prod.snd
  | _ => none

/-- The session that makes room for a creation has no live bridge, and the bridge whose start
completes is still that of a session in the maps. -/
structure Retains (s : TerminalSessionService) (a : Action) : Prop where
  drop : ∀ entry ∈ s.replaced a, ∀ bridge ∈ entry.2.bridge, ∀ b ∈ s.bridges.get? bridge,
    b.isLive = false
  start : ∀ bridge ∈ s.startedBridge a, s.Referenced bridge

/-! ## What matters of a state -/

/-- The id of a session and its bridge. -/
def refs (s : TerminalSessionService) (i : ℕ) : Option (String × Option ℕ) :=
  (s.sessions.get? i).map fun managed => (managed.record.sessionId, managed.bridge)

/-- What a task has started. -/
def starting (s : TerminalSessionService) : ℕ → Option (String × ℕ) := s.watch TaskPhase.starting

/-- Bridges are made for one session, and started once, by one task. -/
structure BridgeInv (s : TerminalSessionService) : Prop where
  made : ∀ i sessionId bridge, s.refs i = some (sessionId, some bridge) →
    ∃ b, s.bridges.get? bridge = some b ∧ b.sessionId = sessionId
  starting : ∀ task sessionId bridge, s.starting task = some (sessionId, bridge) →
    (∃ b, s.bridges.get? bridge = some b ∧ b.started = false) ∧
      ∃ i, s.refs i = some (sessionId, some bridge)
  once : ∀ task task' sessionId sessionId' bridge, s.starting task = some (sessionId, bridge) →
    s.starting task' = some (sessionId', bridge) → task = task'

/-- A session is in the maps under its own id. -/
theorem Inv.referenced_iff (h : Inv s) {bridge : ℕ} : s.Referenced bridge ↔
    ∃ sessionId i, s.sessionsById.get? sessionId = some i ∧
      s.refs i = some (sessionId, some bridge) := by
  constructor
  · rintro ⟨sessionId, i, managed, hs, hb⟩
    obtain ⟨hid, hi⟩ := session_eq_some.mp hs
    refine ⟨sessionId, i, hid, ?_⟩
    rw [refs, hi, Option.map_some, h.sessionId_eq hs, hb]
  · rintro ⟨sessionId, i, hid, hrefs⟩
    obtain ⟨managed, hi, heq⟩ := Option.map_eq_some_iff.mp hrefs
    exact ⟨sessionId, i, managed, session_eq_some.mpr ⟨hid, hi⟩, (Prod.mk.inj heq).2⟩

/-! ## Steps -/

/-- What a step does to the bridges, the sessions and the tasks that start bridges. -/
inductive BridgeStep (s : TerminalSessionService) (a : Action) (t : TerminalSessionService) : Prop
  /-- A task may stop to wait for its bridge. -/
  | keep (refs : ∀ i, t.refs i = s.refs i) (ids : t.sessionsById = s.sessionsById)
      (bridges : t.bridges = s.bridges)
      (starting : ∀ task, t.starting task = s.starting task ∨ t.starting task = none)
      (replaced : s.replaced a = none) (startedBridge : s.startedBridge a = none)
  | vacate {groupFolder : String} {u : TerminalSessionService} (vacated : Vacated s groupFolder u)
      (refs : ∀ i, t.refs i = u.refs i) (ids : t.sessionsById = u.sessionsById)
      (bridges : t.bridges = s.bridges) (starting : ∀ task, t.starting task = s.starting task)
      (replaced : ∀ entry, s.replaced a = some entry ↔
        s.sessionOfGroup groupFolder = some entry ∧ u = s.dropSession entry.1 entry.2)
      (startedBridge : s.startedBridge a = none)
  | opened {groupFolder sessionId : String} {task : ℕ} {u : TerminalSessionService}
      (vacated : Vacated s groupFolder u)
      (fresh : s.Fresh a → ∀ i bridge, s.refs i ≠ some (sessionId, bridge))
      (new : s.refs u.sessions.size = none)
      (refs : t.refs =
        Function.update s.refs u.sessions.size (some (sessionId, some s.bridges.size)))
      (ids : t.sessionsById = u.sessionsById.insert sessionId u.sessions.size)
      (bridges : t.bridges = s.bridges.alloc { sessionId })
      (starting : t.starting = Function.update s.starting task (some (sessionId, s.bridges.size)))
      (replaced : ∀ entry, s.replaced a = some entry ↔
        s.sessionOfGroup groupFolder = some entry ∧ u = s.dropSession entry.1 entry.2)
      (startedBridge : s.startedBridge a = none)
  | reopened {sessionId : String} {i task : ℕ} (unbound : s.refs i = some (sessionId, none))
      (refs : t.refs = Function.update s.refs i (some (sessionId, some s.bridges.size)))
      (ids : t.sessionsById = s.sessionsById) (bridges : t.bridges = s.bridges.alloc { sessionId })
      (starting : t.starting = Function.update s.starting task (some (sessionId, s.bridges.size)))
      (replaced : s.replaced a = none) (startedBridge : s.startedBridge a = none)
  | closed {bridge : ℕ} (refs : ∀ i, t.refs i = s.refs i) (ids : t.sessionsById = s.sessionsById)
      (bridges : t.bridges = s.bridges.modify bridge fun b => { b with closed := true })
      (starting : ∀ task, t.starting task = s.starting task)
      (replaced : s.replaced a = none) (startedBridge : s.startedBridge a = none)
  | started {sessionId : String} {bridge task : ℕ}
      (waiting : s.starting task = some (sessionId, bridge)) (refs : ∀ i, t.refs i = s.refs i)
      (ids : t.sessionsById = s.sessionsById)
      (bridges : t.bridges = s.bridges.modify bridge fun b =>
        { b with started := true, closed := false })
      (starting : t.starting = Function.update s.starting task none)
      (replaced : s.replaced a = none) (startedBridge : s.startedBridge a = some bridge)
  | failed {sessionId : String} {bridge task i : ℕ}
      (waiting : s.starting task = some (sessionId, bridge))
      (bound : s.refs i = some (sessionId, some bridge))
      (refs : t.refs = Function.update s.refs i (some (sessionId, none)))
      (ids : t.sessionsById = s.sessionsById) (bridges : t.bridges = s.bridges)
      (starting : t.starting = Function.update s.starting task none)
      (replaced : s.replaced a = none) (startedBridge : s.startedBridge a = none)

/-! ## Every step is one of these -/

theorem refs_modify {i : ℕ} {managed : ManagedTerminalSession}
    {f : ManagedTerminalSession → ManagedTerminalSession}
    (hi : s.sessions.get? i = some managed) (hs : t.sessions = s.sessions.modify i f) :
    t.refs = Function.update s.refs i (some ((f managed).record.sessionId, (f managed).bridge)) := by
  funext j
  unfold refs
  rw [hs, Heap.get?_modify]
  by_cases hj : j = i
  · subst hj
    rw [if_pos rfl, hi, Function.update_self]
    rfl
  · rw [if_neg hj, Function.update_of_ne hj]

/-- An assignment that leaves the id and the bridge of a session alone. -/
theorem refs_assign {i : ℕ} {managed : ManagedTerminalSession}
    {f : ManagedTerminalSession → ManagedTerminalSession}
    (hi : s.sessions.get? i = some managed) (hs : t.sessions = s.sessions.modify i f)
    (hid : (f managed).record.sessionId = managed.record.sessionId)
    (hbridge : (f managed).bridge = managed.bridge) : t.refs = s.refs := by
  rw [refs_modify hi hs, hid, hbridge]
  refine Function.update_eq_self_iff.mpr ?_
  rw [refs, hi, Option.map_some]

theorem TaskPhase.starting_of_done {phase : TaskPhase} (h : phase.isDone = true) :
    phase.starting = none := by
  cases phase <;> first | rfl | cases h

theorem startedBridge_of_first {a : Action} (h : ∀ task failure, a ≠ .resume task failure) :
    s.startedBridge a = none := by
  cases a with
  | resume task failure => exact absurd rfl (h task failure)
  | _ => rfl

theorem Vacated.refs {groupFolder : String} (h : Vacated s groupFolder u) : u.refs = s.refs := by
  cases h with
  | free => rfl
  | @drop i managed found ended =>
    rw [dropSession_eq]
    exact refs_assign (sessionOfGroup_eq_some.mp found).2 rfl rfl rfl

theorem put_eq (queue : Option ℕ) (event : TerminalSessionEvent) (s : TerminalSessionService) :
    ∃ queues, s.put queue event = { s with queues } := by
  cases queue with
  | none => exact ⟨s.queues, rfl⟩
  | some queue => exact ⟨_, rfl⟩

/-- A creation and the session it replaces. -/
theorem Vacated.replaced_iff {groupFolder : String} (h : Vacated s groupFolder u)
    (groupId ownerUserId sessionId : String) (factory : Except String (Option String))
    (entry : ℕ × ManagedTerminalSession) :
    s.replaced (.create groupId groupFolder ownerUserId .container sessionId factory) =
        some entry ↔
      s.sessionOfGroup groupFolder = some entry ∧ u = s.dropSession entry.1 entry.2 := by
  cases h with
  | free hnone => simp [replaced, hnone]
  | @drop i managed found ended =>
    have hsome : s.replaced
        (.create groupId groupFolder ownerUserId .container sessionId factory) =
          some (i, managed) := by
      simp [replaced, found, ended, Option.filter]
    rw [hsome, found]
    constructor
    · rintro ⟨⟩
      exact ⟨rfl, rfl⟩
    · rintro ⟨⟨⟩, -⟩
      rfl

theorem refs_opened (managed : ManagedTerminalSession) (s : TerminalSessionService) :
    (s.opened managed).refs = Function.update s.refs s.sessions.size
      (some (managed.record.sessionId, managed.bridge)) := by
  funext i
  show ((s.sessions.alloc managed).get? i).map _ = _
  rw [Heap.get?_alloc]
  by_cases hi : i = s.sessions.size
  · rw [if_pos hi, hi, Function.update_self]
    rfl
  · rw [if_neg hi, Function.update_of_ne hi]
    rfl

/-- A close sets the flag of the bridge, if there is one. -/
theorem closeWith_refs {i : ℕ} {managed : ManagedTerminalSession}
    (managed' : ManagedTerminalSession) (next : Continuation) (tasks : Heap Task)
    (hi : s.sessions.get? i = some managed)
    (hid : managed'.record.sessionId = managed.record.sessionId)
    (hbridge : managed'.bridge = managed.bridge) :
    (s.closeWith i managed managed' next tasks).2.refs = s.refs ∧
      (s.closeWith i managed managed' next tasks).2.sessionsById = s.sessionsById ∧
      ((s.closeWith i managed managed' next tasks).2.bridges = s.bridges ∨
        ∃ bridge, (s.closeWith i managed managed' next tasks).2.bridges =
          s.bridges.modify bridge fun b => { b with closed := true }) := by
  unfold closeWith
  cases managed.bridge with
  | none => exact ⟨refs_assign hi rfl hid (by assumption), rfl, .inl rfl⟩
  | some bridge => exact ⟨refs_assign hi rfl hid (by assumption), rfl, .inr ⟨bridge, rfl⟩⟩

theorem closeWith_starting (i : ℕ) (managed managed' : ManagedTerminalSession)
    (next : Continuation) (tasks : Heap Task) (s : TerminalSessionService) :
    (s.closeWith i managed managed' next tasks).1.starting = none := by
  unfold closeWith
  cases managed.bridge <;> rfl

/-- **Calls** and the bridges. -/
theorem Inv.bridgeStep_called (h : Inv s) {a : Action} {phase : TaskPhase}
    (hcalled : Called s a phase u)
    (hcore : t.core = { u.core with tasks := u.tasks.alloc { phase } })
    (hfirst : ∀ task failure, a ≠ .resume task failure) : BridgeStep s a t := by
  obtain ⟨hsize, hstarting⟩ := hcalled.watch TaskPhase.starting hcore fun _ _ => rfl
  have hnone := startedBridge_of_first (s := s) hfirst
  have hrefs : t.refs = u.refs := by
    have hsessions : t.sessions = u.sessions := congrArg (fun s => s.sessions) hcore
    funext i
    rw [refs, refs, hsessions]
  have hids : t.sessionsById = u.sessionsById := congrArg (fun s => s.sessionsById) hcore
  have hbridges : t.bridges = u.bridges := congrArg (fun s => s.bridges) hcore
  -- A task that waits for no bridge changes nothing that is started.
  have hquiet : phase.starting = none → ∀ task, t.starting task = s.starting task := by
    intro hphase k
    rw [starting, hstarting, hphase, ← watch_eq_none TaskPhase.starting hsize,
      Function.update_eq_self]
    rfl
  have hkeep : u.refs = s.refs → u.sessionsById = s.sessionsById → u.bridges = s.bridges →
      phase.starting = none → s.replaced a = none → BridgeStep s a t := by
    intro hr hi hb hphase hreplaced
    exact .keep (congrFun (hrefs.trans hr)) (hids.trans hi) (hbridges.trans hb)
      (fun task => .inl (hquiet hphase task)) hreplaced hnone
  cases hcalled with
  | idle done idle => exact hkeep rfl rfl rfl (TaskPhase.starting_of_done done) idle.replaced
  | @put _ _ _ _ managed streamEvent =>
    obtain ⟨queues, hput⟩ := put_eq managed.outputQueue streamEvent s
    rw [hput] at hkeep
    exact hkeep rfl rfl rfl rfl rfl
  | @createRaised groupId groupFolder ownerUserId sessionId message _ vacated =>
    exact .vacate vacated (congrFun hrefs) hids (hbridges.trans vacated.bridges.1) (hquiet rfl)
      (vacated.replaced_iff groupId ownerUserId sessionId (.error message)) hnone
  | @created groupId groupFolder ownerUserId sessionId containerName backend u vacated =>
    have hsize : u.bridges = s.bridges := vacated.bridges.1
    refine @BridgeStep.opened s _ t groupFolder sessionId _ u vacated ?_ ?_ ?_ hids
      (hbridges.trans (congrArg (fun bridges => Heap.alloc bridges _) hsize))
      (hstarting.trans (congrArg (fun n => Function.update s.starting _ (some (sessionId, n)))
        (congrArg Heap.size hsize)))
      (vacated.replaced_iff groupId ownerUserId sessionId (.ok containerName)) hnone
    · intro hfresh i bridge hi
      obtain ⟨managed, hget, heq⟩ := Option.map_eq_some_iff.mp hi
      exact hfresh managed (List.mem_of_getElem? hget) (Prod.mk.inj heq).1
    · rw [← vacated.refs, refs, (Heap.get?_eq_none_iff _ _).mpr (Nat.le_refl _)]
      rfl
    · rw [hrefs, ← hsize, ← vacated.refs]
      exact refs_opened _ u
  | @attached _ _ _ i b managed found bridge =>
    have hi := (session_eq_some.mp (owned_eq_some.mp found).1).2
    exact hkeep (refs_assign hi rfl rfl rfl) rfl rfl rfl rfl
  | @attachRaised _ _ _ i managed found bridge =>
    have hi := (session_eq_some.mp (owned_eq_some.mp found).1).2
    exact hkeep (refs_assign hi rfl rfl rfl) rfl rfl rfl rfl
  | @reopened _ _ _ i managed found bridge =>
    have hi := (session_eq_some.mp (owned_eq_some.mp found).1).2
    refine @BridgeStep.reopened s _ t managed.record.sessionId i _ ?_ ?_ hids hbridges hstarting rfl
      hnone
    · rw [refs, hi, Option.map_some, bridge]
    · rw [hrefs]
      exact refs_modify (f := fun _ => managed.reopen s.queues.size s.now s.bridges.size _) hi rfl
  | @detached _ sessionId i deadline managed managed' target found eq =>
    subst eq
    have hcreate : s.replaced a = none := by
      cases a with
      | create => cases target
      | _ => rfl
    exact hkeep (refs_assign (h.found target).get? rfl rfl rfl) rfl rfl rfl hcreate
  | @closed _ i managed target =>
    have hcreate : s.replaced a = none := by
      cases a with
      | create => cases target
      | _ => rfl
    obtain ⟨hr, hi, hb⟩ := closeWith_refs managed.close (.closed i) (s.recalled managed)
      (h.found target).get? rfl rfl
    have hphase := closeWith_starting i managed managed.close (.closed i) (s.recalled managed) s
    rcases hb with hb | ⟨bridge, hb⟩
    · exact hkeep hr hi hb hphase hcreate
    · exact @BridgeStep.closed _ _ _ bridge (congrFun (hrefs.trans hr)) (hids.trans hi)
        (hbridges.trans hb) (hquiet hphase) hcreate hnone
  | @output bridge i event b text managed managed' get? found type data eq =>
    obtain ⟨chunks, bytes, truncated, ha⟩ :=
      record_appendOutputHistory s.historyMaxBytes managed text
    subst eq
    exact hkeep (refs_assign (session_eq_some.mp found).2 rfl (by rw [ha]) (by rw [ha])) rfl rfl rfl
      rfl
  | @exited bridge i event b managed get? found =>
    exact hkeep (refs_assign (session_eq_some.mp found).2 rfl rfl rfl) rfl rfl rfl rfl

/-- A task that is resumed waits for no bridge then. -/
theorem Resumed.starting {failure : Option String} {phase phase' : TaskPhase}
    (h : Resumed s failure phase phase' u) : phase'.starting = none := by
  cases h with
  | @persisted _ _ next => cases next <;> rfl
  | expired => exact closeWith_starting _ _ _ _ _ _
  | _ => rfl

theorem startedBridge_resume {task : ℕ} {phase : TaskPhase}
    (hget : s.tasks.get? task = some { phase, cancelRequested := false }) :
    s.startedBridge (.resume task none) = phase.starting.map Prod.snd := by
  simp [startedBridge, hget, Option.filter]

/-- **Resumptions** and the bridges. -/
theorem Inv.bridgeStep_resumed (h : Inv s) (hb : BridgeInv s) {task : ℕ} {failure : Option String}
    {phase phase' : TaskPhase} (hget : s.tasks.get? task = some { phase, cancelRequested := false })
    (hresumed : Resumed s failure phase phase' u)
    (hcore : t.core = (u.setTaskPhase task phase').core) : BridgeStep s (.resume task failure) t := by
  have hrefs : t.refs = u.refs := by
    have hsessions : t.sessions = u.sessions := congrArg (fun s => s.sessions) hcore
    funext i
    rw [refs, refs, hsessions]
  have hids : t.sessionsById = u.sessionsById := congrArg (fun s => s.sessionsById) hcore
  have hbridges : t.bridges = u.bridges := congrArg (fun s => s.bridges) hcore
  have hstarting : t.starting = Function.update s.starting task none := by
    rw [← hresumed.starting]
    exact hresumed.watch TaskPhase.starting hget hcore
  have hphase : s.starting task = phase.starting := watch_of_get? TaskPhase.starting hget
  have hless : ∀ k, t.starting k = s.starting k ∨ t.starting k = none := by
    intro k
    rw [hstarting]
    by_cases hk : k = task
    · exact .inr (by rw [hk, Function.update_self])
    · exact .inl (Function.update_of_ne hk _ _)
  have hkeep : u.refs = s.refs → u.sessionsById = s.sessionsById → u.bridges = s.bridges →
      s.startedBridge (.resume task failure) = none → BridgeStep s (.resume task failure) t :=
    fun hr hi hb hnone => .keep (congrFun (hrefs.trans hr)) (hids.trans hi) (hbridges.trans hb)
      hless rfl hnone
  -- A task that waits for no bridge completes no start.
  have hnone : phase.starting = none → s.startedBridge (.resume task failure) = none := by
    intro hphase
    cases failure with
    | none => rw [startedBridge_resume hget, hphase]; rfl
    | some message => rfl
  cases hresumed with
  | createFailed => exact hkeep rfl rfl rfl rfl
  | attachGone => exact hkeep rfl rfl rfl rfl
  | createGone | createStarted | attachStarted =>
    exact .started hphase (congrFun hrefs) hids hbridges hstarting rfl (startedBridge_resume hget)
  | @attachFailed message record queue bridge i snapshot managed found =>
    -- The session that is closed still has the bridge that did not start.
    have hi := (session_eq_some.mp found).2
    obtain ⟨-, j, hj⟩ := hb.starting task record.sessionId bridge hphase
    obtain ⟨m, hm, heq⟩ := Option.map_eq_some_iff.mp hj
    have hid : m.record.sessionId = managed.record.sessionId := by
      rw [h.sessionId_eq found]
      exact (Prod.mk.inj heq).1
    obtain rfl := h.unique j i m managed hm hi hid
    refine .failed hphase hj ?_ hids hbridges hstarting rfl rfl
    rw [hrefs, ← h.sessionId_eq found]
    exact refs_modify (f := fun _ => managed.failStart) hi rfl
  | closeFailed | bridgeClosed | awoken => exact hkeep rfl rfl rfl (hnone rfl)
  | @persisted _ _ next done =>
    cases next with
    | put queue event =>
      obtain ⟨queues, hput⟩ := put_eq queue event s
      have hfinish : (s.finish (.put queue event)).2 = { s with queues } := hput
      rw [hfinish] at hkeep
      exact hkeep rfl rfl rfl (hnone rfl)
    | _ => exact hkeep rfl rfl rfl (hnone rfl)
  | @expired _ _ _ i managed found =>
    obtain ⟨hr, hi, hb⟩ := closeWith_refs managed.expire .expired s.tasks
      (session_eq_some.mp found).2 rfl rfl
    rcases hb with hb | ⟨bridge, hb⟩
    · exact hkeep hr hi hb (hnone rfl)
    · refine @BridgeStep.closed _ _ _ bridge (congrFun (hrefs.trans hr)) (hids.trans hi)
        (hbridges.trans hb) (fun k => ?_) rfl (hnone rfl)
      rw [hstarting]
      by_cases hk : k = task
      · rw [hk, Function.update_self, hphase]
        rfl
      · rw [Function.update_of_ne hk]

/-- **Steps** and the bridges. -/
theorem Inv.bridgeStep (h : Inv s) (hb : BridgeInv s) {a : Action} (hstep : s.step a = some t) :
    BridgeStep s a t := by
  cases turn_of_step hstep with
  | call hcalled hcore hfirst => exact h.bridgeStep_called hcalled hcore hfirst
  | @cancel task failure phase hget hrunning =>
    refine .keep (fun _ => rfl) rfl rfl (fun k => ?_) rfl ?_
    · rw [starting, watch_setTaskPhase _ (Heap.lt_size_of_get? hget)]
      by_cases hk : k = task
      · exact .inr (by rw [hk, Function.update_self]; rfl)
      · exact .inl (Function.update_of_ne hk _ _)
    · cases failure with
      | none => simp [startedBridge, hget, Option.filter]
      | some message => rfl
  | resume hget hrunning hresumed hcore => exact h.bridgeStep_resumed hb hget hresumed hcore
  | write | setClock =>
    exact .keep (fun _ => rfl) rfl rfl (fun _ => .inl rfl) rfl rfl

/-! ## The invariant of the bridges -/

theorem get?_alloc_of_get? {α : Type} {h : Heap α} {i : ℕ} {x y : α} (hi : h.get? i = some x) :
    (h.alloc y).get? i = some x := by
  rw [Heap.get?_alloc, if_neg (Nat.ne_of_lt (Heap.lt_size_of_get? hi)), hi]

/-- What is started less keeps the invariant. -/
theorem BridgeInv.of_starting (h : BridgeInv s) (hrefs : ∀ i, t.refs i = s.refs i)
    (hbridges : ∀ bridge b, s.bridges.get? bridge = some b →
      ∃ b', t.bridges.get? bridge = some b' ∧ b'.sessionId = b.sessionId ∧
        ((∃ task sessionId, t.starting task = some (sessionId, bridge)) → b'.started = b.started))
    (hstarting : ∀ task, t.starting task = s.starting task ∨ t.starting task = none) :
    BridgeInv t := by
  have hold : ∀ {task entry}, t.starting task = some entry → s.starting task = some entry := by
    intro task entry ht
    rcases hstarting task with heq | hnone
    · rw [← heq, ht]
    · rw [hnone] at ht
      cases ht
  constructor
  · intro i sessionId bridge hi
    obtain ⟨b, hb, hid⟩ := h.made i sessionId bridge (hrefs i ▸ hi)
    obtain ⟨b', hb', hid', -⟩ := hbridges bridge b hb
    exact ⟨b', hb', hid'.trans hid⟩
  · intro task sessionId bridge ht
    obtain ⟨⟨b, hb, hunstarted⟩, i, hi⟩ := h.starting task sessionId bridge (hold ht)
    obtain ⟨b', hb', -, hsame⟩ := hbridges bridge b hb
    exact ⟨⟨b', hb', (hsame ⟨task, sessionId, ht⟩).trans hunstarted⟩, i, (hrefs i).trans hi⟩
  · intro task task' sessionId sessionId' bridge ht ht'
    exact h.once task task' sessionId sessionId' bridge (hold ht) (hold ht')

/-- A new bridge for a session without one keeps the invariant. -/
theorem BridgeInv.bind (h : BridgeInv s) {sessionId : String} {i task : ℕ}
    (hunbound : ∀ sessionId' bridge, s.refs i ≠ some (sessionId', some bridge))
    (hrefs : t.refs = Function.update s.refs i (some (sessionId, some s.bridges.size)))
    (hbridges : t.bridges = s.bridges.alloc { sessionId })
    (hstarting : t.starting =
      Function.update s.starting task (some (sessionId, s.bridges.size))) : BridgeInv t := by
  have hnew : t.bridges.get? s.bridges.size = some { sessionId } := by
    rw [hbridges, Heap.get?_alloc, if_pos rfl]
  have hcases : ∀ {k entry}, t.starting k = some entry →
      k = task ∧ entry = (sessionId, s.bridges.size) ∨ s.starting k = some entry := by
    intro k entry hk
    rw [hstarting] at hk
    by_cases htask : k = task
    · rw [htask, Function.update_self] at hk
      exact .inl ⟨htask, (Option.some.inj hk).symm⟩
    · rw [Function.update_of_ne htask] at hk
      exact .inr hk
  -- The bridges of earlier calls are older.
  have hlt : ∀ {k sessionId' bridge}, s.starting k = some (sessionId', bridge) →
      bridge ≠ s.bridges.size := by
    intro k sessionId' bridge hk
    obtain ⟨⟨b, hb, -⟩, -⟩ := h.starting k sessionId' bridge hk
    exact Nat.ne_of_lt (Heap.lt_size_of_get? hb)
  constructor
  · intro j sessionId' bridge hj
    rw [hrefs] at hj
    by_cases hji : j = i
    · rw [hji, Function.update_self] at hj
      cases hj
      exact ⟨_, hnew, rfl⟩
    · rw [Function.update_of_ne hji] at hj
      obtain ⟨b, hb, hid⟩ := h.made j sessionId' bridge hj
      exact ⟨b, by rw [hbridges]; exact get?_alloc_of_get? hb, hid⟩
  · intro k sessionId' bridge hk
    rcases hcases hk with ⟨-, heq⟩ | hk
    · cases heq
      exact ⟨⟨_, hnew, rfl⟩, i, by rw [hrefs, Function.update_self]⟩
    · obtain ⟨⟨b, hb, hunstarted⟩, j, hj⟩ := h.starting k sessionId' bridge hk
      refine ⟨⟨b, by rw [hbridges]; exact get?_alloc_of_get? hb, hunstarted⟩, j, ?_⟩
      rw [hrefs, Function.update_of_ne ?_, hj]
      rintro rfl
      exact hunbound _ _ hj
  · intro k k' sessionId' sessionId'' bridge hk hk'
    rcases hcases hk with ⟨rfl, heq⟩ | hk <;> rcases hcases hk' with ⟨rfl, heq'⟩ | hk'
    · rfl
    · exact absurd (Prod.mk.inj heq).2 (hlt hk')
    · exact absurd (Prod.mk.inj heq').2 (hlt hk)
    · exact h.once k k' sessionId' sessionId'' bridge hk hk'

theorem BridgeInv.step (h : BridgeInv s) {a : Action} (k : BridgeStep s a t) : BridgeInv t := by
  have hsame : ∀ bridge b, s.bridges.get? bridge = some b →
      ∃ b', s.bridges.get? bridge = some b' ∧ b'.sessionId = b.sessionId ∧
        ((∃ task sessionId, t.starting task = some (sessionId, bridge)) →
          b'.started = b.started) :=
    fun _ b hb => ⟨b, hb, rfl, fun _ => rfl⟩
  cases k with
  | keep refs ids bridges starting =>
    refine h.of_starting refs ?_ starting
    rw [bridges]
    exact hsame
  | vacate vacated refs ids bridges starting =>
    refine h.of_starting (fun i => (refs i).trans (congrFun vacated.refs i)) ?_ fun k =>
      .inl (starting k)
    rw [bridges]
    exact hsame
  | opened vacated fresh new refs ids bridges starting =>
    exact h.bind (fun _ _ h => by rw [new] at h; cases h) refs bridges starting
  | reopened unbound refs ids bridges starting =>
    exact h.bind (fun _ _ h => by rw [unbound] at h; cases h) refs bridges starting
  | @closed bridge refs ids bridges starting =>
    refine h.of_starting refs (fun k b hb => ?_) fun k => .inl (starting k)
    rw [bridges, Heap.get?_modify, hb]
    split
    · exact ⟨_, rfl, rfl, fun _ => rfl⟩
    · exact ⟨b, rfl, rfl, fun _ => rfl⟩
  | @started sessionId bridge task waiting refs ids bridges starting =>
    refine h.of_starting refs (fun k b hb => ?_) fun k => ?_
    · rw [bridges, Heap.get?_modify, hb]
      split
      · rename_i hk
        refine ⟨_, rfl, rfl, ?_⟩
        -- No other task starts this bridge.
        rintro ⟨task', sessionId', ht⟩
        rw [starting] at ht
        by_cases htask : task' = task
        · rw [htask, Function.update_self] at ht
          cases ht
        · rw [Function.update_of_ne htask, hk] at ht
          exact absurd (h.once _ _ _ _ _ ht waiting) htask
      · exact ⟨b, rfl, rfl, fun _ => rfl⟩
    · rw [starting]
      by_cases hk : k = task
      · exact .inr (by rw [hk, Function.update_self])
      · exact .inl (Function.update_of_ne hk _ _)
  | @failed sessionId bridge task i waiting bound refs ids bridges starting =>
    have hold : ∀ {k entry}, t.starting k = some entry → k ≠ task ∧ s.starting k = some entry := by
      intro k entry hk
      rw [starting] at hk
      by_cases htask : k = task
      · rw [htask, Function.update_self] at hk
        cases hk
      · rw [Function.update_of_ne htask] at hk
        exact ⟨htask, hk⟩
    constructor
    · intro j sessionId' bridge' hj
      rw [refs] at hj
      by_cases hji : j = i
      · rw [hji, Function.update_self] at hj
        cases hj
      · rw [Function.update_of_ne hji] at hj
        rw [bridges]
        exact h.made j sessionId' bridge' hj
    · intro k sessionId' bridge' hk
      obtain ⟨hne, hk⟩ := hold hk
      obtain ⟨hunstarted, j, hj⟩ := h.starting k sessionId' bridge' hk
      refine ⟨by rwa [bridges], j, ?_⟩
      rw [refs, Function.update_of_ne ?_, hj]
      -- The session that lost its bridge had that of the task.
      rintro rfl
      rw [bound] at hj
      cases hj
      exact hne (h.once _ _ _ _ _ hk waiting)
    · intro k k' sessionId' sessionId'' bridge' hk hk'
      exact h.once k k' sessionId' sessionId'' bridge' (hold hk).2 (hold hk').2

/-! ## Leaks -/

theorem NoLeak.of_live (h : NoLeak s)
    (hlive : ∀ bridge b, t.bridges.get? bridge = some b → b.isLive = true →
      ∃ b', s.bridges.get? bridge = some b' ∧ b'.isLive = true)
    (href : ∀ bridge b, s.bridges.get? bridge = some b → b.isLive = true → s.Referenced bridge →
      t.Referenced bridge) : NoLeak t := by
  intro bridge b hb hl
  obtain ⟨b', hb', hl'⟩ := hlive bridge b hb hl
  exact href bridge b' hb' hl' (h bridge b' hb' hl')

/-- A vacated workspace has lost the bridge of the session that was dropped. -/
theorem Inv.referenced_vacated (h : Inv s) (hb : BridgeInv s) {groupFolder : String}
    (hu : Vacated s groupFolder u) (bridge : ℕ) : u.Referenced bridge ↔ s.Referenced bridge ∧
      ∀ entry, s.sessionOfGroup groupFolder = some entry ∧ u = s.dropSession entry.1 entry.2 →
        entry.2.bridge ≠ some bridge := by
  have hinv := (h.vacated hu).1
  have hrefs := hu.refs
  cases hu with
  | free hnone => simp [hnone]
  | @drop i managed found ended =>
    obtain ⟨hgroup, hi⟩ := sessionOfGroup_eq_some.mp found
    obtain ⟨m, hm, -, hid⟩ := h.by_group groupFolder i hgroup
    obtain rfl := Option.some.inj (hm.symm.trans hi)
    rw [hinv.referenced_iff, h.referenced_iff, hrefs]
    have hids : (s.dropSession i m).sessionsById = s.sessionsById.erase m.record.sessionId := by
      rw [dropSession_eq]
    have hlost : ∀ {bridge}, m.bridge = some bridge →
        s.refs i = some (m.record.sessionId, some bridge) := by
      intro bridge hbridge
      rw [refs, hi, Option.map_some, hbridge]
    constructor
    · rintro ⟨sessionId, j, hj, hr⟩
      rw [hids, Dict.get?_erase] at hj
      split at hj
      · cases hj
      · rename_i hne
        refine ⟨⟨sessionId, j, hj, hr⟩, ?_⟩
        rintro entry ⟨hentry, -⟩ hbridge
        rw [found] at hentry
        cases hentry
        -- The bridge was made for one session only.
        obtain ⟨b, hget, hmade⟩ := hb.made i _ bridge (hlost hbridge)
        obtain ⟨b', hget', hmade'⟩ := hb.made j _ bridge hr
        obtain rfl := Option.some.inj (hget.symm.trans hget')
        exact hne (hmade'.symm.trans hmade)
    · rintro ⟨⟨sessionId, j, hj, hr⟩, hother⟩
      refine ⟨sessionId, j, ?_, hr⟩
      rw [hids, Dict.get?_erase, if_neg ?_, hj]
      rintro rfl
      obtain rfl := Option.some.inj (hid.symm.trans hj)
      obtain ⟨m', hm', heq⟩ := Option.map_eq_some_iff.mp hr
      obtain rfl := Option.some.inj (hm'.symm.trans hi)
      exact hother (i, m') ⟨found, rfl⟩ (Prod.mk.inj heq).2

/-- A creation leaks the live bridge of the session that it drops, if it has one. -/
theorem Inv.noLeak_vacated (h : Inv s) (hb : BridgeInv s) {groupFolder : String} {a : Action}
    (hu : Vacated s groupFolder u)
    (hreplaced : ∀ entry, s.replaced a = some entry ↔
      s.sessionOfGroup groupFolder = some entry ∧ u = s.dropSession entry.1 entry.2)
    (hstarted : s.startedBridge a = none) (hnoLeak : NoLeak s)
    (hlive : ∀ bridge b, b.isLive = true →
      (t.bridges.get? bridge = some b ↔ s.bridges.get? bridge = some b))
    (href : ∀ bridge b, s.bridges.get? bridge = some b →
      (t.Referenced bridge ↔ u.Referenced bridge)) : NoLeak t ↔ s.Retains a := by
  constructor
  · intro ht
    constructor
    · intro entry hentry bridge hbridge b hget
      by_contra hl
      rw [Bool.not_eq_false] at hl
      have hlost := (href bridge b hget).mp (ht bridge b ((hlive bridge b hl).mpr hget) hl)
      exact ((h.referenced_vacated hb hu bridge).mp hlost).2 entry ((hreplaced entry).mp hentry)
        hbridge
    · intro bridge hbridge
      rw [hstarted] at hbridge
      cases hbridge
  · intro hretains bridge b hget hl
    have hget' := (hlive bridge b hl).mp hget
    refine (href bridge b hget').mpr ((h.referenced_vacated hb hu bridge).mpr
      ⟨hnoLeak bridge b hget' hl, fun entry hentry hbridge => ?_⟩)
    have hdead := hretains.drop entry ((hreplaced entry).mpr hentry) bridge hbridge b hget'
    rw [hl] at hdead
    cases hdead

/-! ### What is referenced after a step -/

/-- What the maps and the sessions say is all there is to a reference. -/
theorem Inv.referenced_congr (h : Inv s) (ht : Inv t) (hrefs : ∀ i, t.refs i = s.refs i)
    (hids : t.sessionsById = s.sessionsById) (bridge : ℕ) :
    t.Referenced bridge ↔ s.Referenced bridge := by
  rw [ht.referenced_iff, h.referenced_iff]
  simp only [hrefs, hids]

/-- A session that is given another bridge loses its own, and no other. -/
theorem Inv.referenced_of_update (h : Inv s) (ht : Inv t) {i bridge : ℕ}
    {new : Option (String × Option ℕ)} (hrefs : t.refs = Function.update s.refs i new)
    (hids : t.sessionsById = s.sessionsById)
    (hother : ∀ sessionId, s.refs i ≠ some (sessionId, some bridge)) (hr : s.Referenced bridge) :
    t.Referenced bridge := by
  rw [h.referenced_iff] at hr
  obtain ⟨sessionId, j, hj, hr⟩ := hr
  rw [ht.referenced_iff, hrefs, hids]
  refine ⟨sessionId, j, hj, ?_⟩
  rw [Function.update_of_ne ?_, hr]
  rintro rfl
  exact hother sessionId hr

/-- A session that is opened under a new id references the bridge that was made for it, and leaves
all others as they were. -/
theorem Inv.referenced_opened (h : Inv s) (ht : Inv t) {i bridge newBridge : ℕ}
    {sessionId : String} (hfresh : ∀ j bridge', s.refs j ≠ some (sessionId, bridge'))
    (hnew : s.refs i = none)
    (hrefs : t.refs = Function.update s.refs i (some (sessionId, some newBridge)))
    (hids : t.sessionsById = s.sessionsById.insert sessionId i) (hne : bridge ≠ newBridge) :
    t.Referenced bridge ↔ s.Referenced bridge := by
  rw [ht.referenced_iff, h.referenced_iff, hrefs, hids]
  have hother : ∀ {sessionId' j bridge'}, s.refs j = some (sessionId', bridge') →
      sessionId' ≠ sessionId := by
    rintro sessionId' j bridge' hj rfl
    exact hfresh j bridge' hj
  constructor
  · rintro ⟨sessionId', j, hj, hr⟩
    by_cases hji : j = i
    · rw [hji, Function.update_self] at hr
      cases hr
      exact absurd rfl hne
    · rw [Function.update_of_ne hji] at hr
      rw [Dict.get?_insert, if_neg (hother hr)] at hj
      exact ⟨sessionId', j, hj, hr⟩
  · rintro ⟨sessionId', j, hj, hr⟩
    refine ⟨sessionId', j, ?_, ?_⟩
    · rw [Dict.get?_insert, if_neg (hother hr), hj]
    · rw [Function.update_of_ne ?_, hr]
      rintro rfl
      rw [hnew] at hr
      cases hr

/-- A step that drops no session and starts no bridge retains what there is. -/
theorem retains_of_none {a : Action} (hreplaced : s.replaced a = none)
    (hstarted : s.startedBridge a = none) : s.Retains a := by
  constructor
  · intro entry hentry
    rw [hreplaced] at hentry
    cases hentry
  · intro bridge hbridge
    rw [hstarted] at hbridge
    cases hbridge

/-- **Steps** leak nothing exactly where they retain every live bridge. -/
theorem Inv.noLeak_step (h : Inv s) (hb : BridgeInv s) (ht : Inv t) {a : Action}
    (hfresh : s.Fresh a) (k : BridgeStep s a t) (hnoLeak : NoLeak s) :
    NoLeak t ↔ s.Retains a := by
  cases k with
  | keep refs ids bridges starting replaced started =>
    refine iff_of_true (hnoLeak.of_live (fun bridge b hget hl => ?_) fun bridge b _ _ hr => ?_)
      (retains_of_none replaced started)
    · exact ⟨b, bridges ▸ hget, hl⟩
    · exact (h.referenced_congr ht refs ids bridge).mpr hr
  | @vacate groupFolder u vacated refs ids bridges starting replaced started =>
    refine h.noLeak_vacated hb vacated replaced started hnoLeak (fun bridge b _ => ?_)
      fun bridge b _ => ?_
    · rw [bridges]
    · exact (h.vacated vacated).1.referenced_congr ht refs ids bridge
  | @opened groupFolder sessionId task u vacated fresh new refs ids bridges starting replaced
      started =>
    refine h.noLeak_vacated hb vacated replaced started hnoLeak (fun bridge b hl => ?_)
      fun bridge b hget => ?_
    · rw [bridges, Heap.get?_alloc]
      split
      · rename_i hnew
        rw [hnew, (Heap.get?_eq_none_iff _ _).mpr (Nat.le_refl _)]
        refine iff_of_false ?_ nofun
        -- The new bridge has not started.
        rintro ⟨⟩
        cases hl
      · exact Iff.rfl
    · have hold := Nat.ne_of_lt (Heap.lt_size_of_get? hget)
      rw [← vacated.refs] at fresh new refs
      exact (h.vacated vacated).1.referenced_opened ht (fresh hfresh) new refs ids hold
  | @reopened sessionId i task unbound refs ids bridges starting replaced started =>
    refine iff_of_true (hnoLeak.of_live (fun bridge b hget hl => ?_) fun bridge b _ _ hr => ?_)
      (retains_of_none replaced started)
    · rw [bridges, Heap.get?_alloc] at hget
      split at hget
      · cases hget
        cases hl
      · exact ⟨b, hget, hl⟩
    · refine h.referenced_of_update ht refs ids (fun sessionId' hbound => ?_) hr
      rw [unbound] at hbound
      cases hbound
  | @closed bridge refs ids bridges starting replaced started =>
    refine iff_of_true (hnoLeak.of_live (fun k b hget hl => ?_) fun k b _ _ hr => ?_)
      (retains_of_none replaced started)
    · rw [bridges] at hget
      rcases Heap.get?_modify_cases hget with ⟨b', hb', -, rfl⟩ | ⟨-, hget⟩
      · simp [TerminalBridge.isLive] at hl
      · exact ⟨b, hget, hl⟩
    · exact (h.referenced_congr ht refs ids k).mpr hr
  | @started sessionId bridge task waiting refs ids bridges starting replaced started =>
    constructor
    · intro hsafe
      refine ⟨fun entry hentry => ?_, fun k hk => ?_⟩
      · rw [replaced] at hentry
        cases hentry
      · rw [started] at hk
        cases hk
        obtain ⟨⟨b, hget, -⟩, -⟩ := hb.starting task sessionId bridge waiting
        refine (h.referenced_congr ht refs ids bridge).mp
          (hsafe bridge { b with started := true, closed := false } ?_ rfl)
        rw [bridges, Heap.get?_modify, if_pos rfl, hget]
        rfl
    · intro hretains k b hget hl
      rw [h.referenced_congr ht refs ids k]
      rw [bridges, Heap.get?_modify] at hget
      split at hget
      · rename_i hk
        exact hretains.start k (by rw [started, hk]; rfl)
      · exact hnoLeak k b hget hl
  | @failed sessionId bridge task i waiting bound refs ids bridges starting replaced started =>
    refine iff_of_true (hnoLeak.of_live (fun k b hget hl => ?_) fun k b hget hl hr => ?_)
      (retains_of_none replaced started)
    · exact ⟨b, bridges ▸ hget, hl⟩
    · refine h.referenced_of_update ht refs ids (fun sessionId' hbound => ?_) hr
      -- The bridge that is given up has not started.
      rw [bound] at hbound
      cases hbound
      obtain ⟨⟨b', hget', hunstarted⟩, -⟩ := hb.starting task sessionId bridge waiting
      obtain rfl := Option.some.inj (hget.symm.trans hget')
      simp [TerminalBridge.isLive, hunstarted] at hl

/-! ## Runs -/

/-- Recovered sessions have no bridge yet. -/
theorem bridges_recoverActiveSessions (reconnectTimeoutSeconds : ℕ) (historyMaxBytes : Int)
    (snapshots : List TerminalSessionHistorySnapshot) :
    (recoverActiveSessions reconnectTimeoutSeconds historyMaxBytes snapshots).bridges = ∅ ∧
      ∀ i managed, (recoverActiveSessions reconnectTimeoutSeconds historyMaxBytes
        snapshots).sessions.get? i = some managed → managed.bridge = none := by
  obtain ⟨_, _, _, heq⟩ :=
    recoverActiveSessions_eq reconnectTimeoutSeconds historyMaxBytes snapshots
  refine ⟨by rw [heq], fun i managed hi => ?_⟩
  obtain ⟨_, -, _, -, hrecovered⟩ := exists_recovered hi
  exact hrecovered.idle.1

theorem bridgeInv_recoverActiveSessions (reconnectTimeoutSeconds : ℕ) (historyMaxBytes : Int)
    (snapshots : List TerminalSessionHistorySnapshot) :
    BridgeInv (recoverActiveSessions reconnectTimeoutSeconds historyMaxBytes snapshots) ∧
      NoLeak (recoverActiveSessions reconnectTimeoutSeconds historyMaxBytes snapshots) := by
  obtain ⟨hbridges, hnone⟩ :=
    bridges_recoverActiveSessions reconnectTimeoutSeconds historyMaxBytes snapshots
  have htasks := tasks_recoverActiveSessions reconnectTimeoutSeconds historyMaxBytes snapshots
  have hidle : ∀ task, (recoverActiveSessions reconnectTimeoutSeconds historyMaxBytes
      snapshots).starting task = none := by
    intro task
    exact watch_eq_none _ (by rw [htasks]; exact Nat.zero_le _)
  refine ⟨⟨fun i sessionId bridge hi => ?_, fun task sessionId bridge ht => ?_,
    fun task task' sessionId sessionId' bridge ht => ?_⟩, fun bridge b hb => ?_⟩
  · obtain ⟨managed, hget, heq⟩ := Option.map_eq_some_iff.mp hi
    rw [hnone i managed hget] at heq
    cases heq
  · rw [hidle] at ht
    cases ht
  · rw [hidle] at ht
    cases ht
  · rw [hbridges] at hb
    cases hb

theorem invs_of_run {reconnectTimeoutSeconds : ℕ} {historyMaxBytes : Int}
    {snapshots : List TerminalSessionHistorySnapshot} {l : List Action}
    (h : Run step Fresh
      (recoverActiveSessions reconnectTimeoutSeconds historyMaxBytes snapshots) l t) :
    Inv t ∧ BridgeInv t :=
  h.invariant (I := fun s => Inv s ∧ BridgeInv s)
    ⟨(inv_recoverActiveSessions reconnectTimeoutSeconds historyMaxBytes snapshots).1,
      (bridgeInv_recoverActiveSessions reconnectTimeoutSeconds historyMaxBytes snapshots).1⟩
    fun hs ha hstep => ⟨hs.1.step ha hstep, hs.2.step (hs.1.bridgeStep hs.2 hstep)⟩

/-- **Leaked bridges.** In a run of a recovered service every live bridge is that of a session in
the maps, in every state, if and only if no creation drops a session with a live bridge and every
start that completes is for a session that is still in the maps. -/
theorem noLeak_iff_retains {reconnectTimeoutSeconds : ℕ} {historyMaxBytes : Int}
    {snapshots : List TerminalSessionHistorySnapshot} {l : List Action}
    (h : Run step Fresh
      (recoverActiveSessions reconnectTimeoutSeconds historyMaxBytes snapshots) l t) :
    (∀ l₁ l₂ u, l = l₁ ++ l₂ → Run step Fresh
        (recoverActiveSessions reconnectTimeoutSeconds historyMaxBytes snapshots) l₁ u →
          NoLeak u) ↔
      Run step (fun s a => s.Fresh a ∧ s.Retains a)
        (recoverActiveSessions reconnectTimeoutSeconds historyMaxBytes snapshots) l t := by
  have hinit := (inv_recoverActiveSessions reconnectTimeoutSeconds historyMaxBytes snapshots).1
  obtain ⟨hbridges, hnoLeak⟩ :=
    bridgeInv_recoverActiveSessions reconnectTimeoutSeconds historyMaxBytes snapshots
  refine h.always_iff (I := fun s => Inv s ∧ BridgeInv s) ⟨hinit, hbridges⟩ hnoLeak
    (fun hs ha hstep => ?_) fun hs hsafe ha hstep => ?_
  · exact ⟨hs.1.step ha hstep, hs.2.step (hs.1.bridgeStep hs.2 hstep)⟩
  · exact hs.1.noLeak_step hs.2 (hs.1.step ha hstep) ha (hs.1.bridgeStep hs.2 hstep) hsafe

/-- A session is created and closed again. -/
def closedRun : List Action :=
  [.create "home" "home" "alice" .container "s" (.ok none), .resume 0 none, .write 0 false,
    .close "s" "alice", .resume 1 none]

/-- The theorem applies. -/
theorem noLeak_iff_retains_closed : ∃ t,
    Run step Fresh (recoverActiveSessions 30 32768 []) closedRun t ∧
    ((∀ l₁ l₂ u, closedRun = l₁ ++ l₂ →
        Run step Fresh (recoverActiveSessions 30 32768 []) l₁ u → NoLeak u) ↔
      Run step (fun s a => s.Fresh a ∧ s.Retains a) (recoverActiveSessions 30 32768 [])
        closedRun t) := by
  have h : Run step Fresh (recoverActiveSessions 30 32768 []) closedRun _ :=
    .of_execute (by decide)
  exact ⟨_, h, noLeak_iff_retains h⟩

/-- The shell of a session exits, and the next session of the workspace takes its place: the bridge
was started, was never closed, and no session has it. -/
def exitedRun : List Action :=
  [.create "home" "home" "alice" .container "s" (.ok none), .resume 0 none, .write 0 false,
    .bridgeEvent 0 { type := .exit, exitCode := some 0 }, .write 1 false,
    .create "home" "home" "alice" .container "s'" (.ok none)]

theorem exists_leak :
    ∃ t, Run step Fresh (recoverActiveSessions 30 32768 []) exitedRun t ∧
      t.bridges.get? 0 = some { sessionId := "s", started := true } ∧ ¬ NoLeak t := by
  have h : Run step Fresh (recoverActiveSessions 30 32768 []) exitedRun _ :=
    .of_execute (by decide)
  obtain ⟨hinv, hbridges⟩ := invs_of_run h
  refine ⟨_, h, by decide, fun hsafe => ?_⟩
  obtain ⟨sessionId, i, hi, hr⟩ := hinv.referenced_iff.mp
    (hsafe 0 { sessionId := "s", started := true } (by decide) rfl)
  -- Only the dropped session could have this bridge.
  obtain ⟨b, hb, rfl⟩ := hbridges.made i sessionId 0 hr
  have hs : b = { sessionId := "s", started := true } :=
    Option.some.inj (hb.symm.trans (by decide))
  have hnone : ((execute step Fresh (recoverActiveSessions 30 32768 []) exitedRun).get
    (by decide)).sessionsById.get? "s" = none := by decide
  rw [hs, hnone] at hi
  cases hi

end TerminalSessionService

end Portex
