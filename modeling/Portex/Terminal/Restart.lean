import Portex.Terminal.Persistence

/-!
# The files after a run, and the recovery from them

The threads that write snapshots may overtake one another, so that an older snapshot is written
over the newest one. Where no step does that, none drops the newest snapshot of a file and no
session is taken back after its end, the files hold the newest snapshots once all jobs have
finished, and a restart does not bring back a session that has ended.

## Main definitions

* `InOrder`: a step neither overwrites nor drops a newest snapshot, nor takes an ended session back
* `UpToDate`: the files hold the newest snapshots
* `listPersistedHistorySnapshots`: what a restart reads
* `StaysEnded`: a restart does not bring back what has ended

## Main results

* `HistoryInv.step`: a session has ended once a snapshot says so, and then a snapshot does say so
* `forwardInTime_of_inOrder`: the runs whose steps are in order
* `not_forwardInTime`: a run after which a closed session comes back
-/

namespace Portex

open Foundation

/-- An effect that gives an ended session a status of a running one. -/
def Effect.takesBack : Effect → Bool
  | attach _ | attachRaising _ | detach => true
  | close | exit | expire | failAttach | output => false

/-- The place of a session: its id, its workspace and whether it has ended. -/
structure Standing where
  sessionId : String
  groupFolder : String
  ended : Bool
  deriving DecidableEq

def TerminalSessionRecord.standing (record : TerminalSessionRecord) : Standing where
  sessionId := record.sessionId
  groupFolder := record.groupFolder
  ended := record.status.isTerminal

namespace TerminalSessionHistorySnapshot

def standing (snapshot : TerminalSessionHistorySnapshot) : Standing := snapshot.record.standing

/-- The snapshots of a workspace are those of its sessions. -/
def workspaces (snapshot : TerminalSessionHistorySnapshot) : List String :=
  [snapshot.record.groupFolder]

def sessions (snapshot : TerminalSessionHistorySnapshot) : List (String × String) :=
  [(snapshot.record.groupFolder, snapshot.record.sessionId)]

theorem latest_mem_files {groupFolder : String} (snapshot : TerminalSessionHistorySnapshot) :
    .latest groupFolder ∈ snapshot.files ↔ groupFolder ∈ snapshot.workspaces := by
  unfold files workspaces
  split <;> simp

theorem archive_mem_files {groupFolder sessionId : String}
    (snapshot : TerminalSessionHistorySnapshot) :
    .archive groupFolder sessionId ∈ snapshot.files ↔
      (groupFolder, sessionId) ∈ snapshot.sessions ∧ snapshot.record.status.isTerminal = true := by
  unfold files sessions
  split
  · rename_i hended
    simp [hended]
  · rename_i hactive
    simp [hactive]

end TerminalSessionHistorySnapshot

namespace TerminalSessionService

variable {s t u : TerminalSessionService} {a : Action}
  {past : List TerminalSessionHistorySnapshot}

/-- No snapshot is written over the newest one of a file, and none that is the newest of a file is
dropped. No attach or detach takes an ended session back. -/
structure InOrder (past : List TerminalSessionHistorySnapshot) (s : TerminalSessionService)
    (a : Action) : Prop where
  written : ∀ snapshot ∈ s.wrote a, ∀ file ∈ snapshot.files,
    s.content file = last TerminalSessionHistorySnapshot.files file past →
      s.content file = some snapshot
  lost : ∀ snapshot ∈ s.lost a, ∀ file ∈ snapshot.files,
    last TerminalSessionHistorySnapshot.files file (past ++ (s.taken a).toList) ≠ some snapshot
  back : ∀ found ∈ s.target a, found.2.1.record.status.isTerminal = true →
    found.2.2.takesBack = false

instance (past : List TerminalSessionHistorySnapshot) (s : TerminalSessionService) (a : Action) :
    Decidable (InOrder past s a) :=
  decidable_of_iff
    ((∀ snapshot ∈ s.wrote a, ∀ file ∈ snapshot.files,
      s.content file = last TerminalSessionHistorySnapshot.files file past →
        s.content file = some snapshot) ∧
      (∀ snapshot ∈ s.lost a, ∀ file ∈ snapshot.files,
        last TerminalSessionHistorySnapshot.files file (past ++ (s.taken a).toList) ≠
          some snapshot) ∧
      ∀ found ∈ s.target a, found.2.1.record.status.isTerminal = true →
        found.2.2.takesBack = false)
    ⟨fun h => ⟨h.1, h.2.1, h.2.2⟩, fun h => ⟨h.written, h.lost, h.back⟩⟩

/-- `latest.json` holds the last snapshot that was taken in its workspace, and the archive of a
session that has ended its last one. -/
structure UpToDate (past : List TerminalSessionHistorySnapshot) (s : TerminalSessionService) :
    Prop where
  latest : ∀ groupFolder, s.content (.latest groupFolder) =
    last TerminalSessionHistorySnapshot.workspaces groupFolder past
  archive : ∀ groupFolder sessionId, s.content (.archive groupFolder sessionId) =
    (last TerminalSessionHistorySnapshot.sessions (groupFolder, sessionId) past).filter fun x =>
      x.record.status.isTerminal

/-- The `latest.json` of a workspace, where there is one: written in the run, or among the files
that were there at its start. -/
def loadPersistedHistorySnapshot (snapshots : List TerminalSessionHistorySnapshot)
    (s : TerminalSessionService) (groupFolder : String) : Option TerminalSessionHistorySnapshot :=
  (s.content (.latest groupFolder)).or
    (snapshots.find? fun snapshot => snapshot.record.groupFolder = groupFolder)

/-- `_list_persisted_history_snapshots`, of the directories there are. -/
def listPersistedHistorySnapshots (snapshots : List TerminalSessionHistorySnapshot)
    (groupFolders : List String) (s : TerminalSessionService) :
    List TerminalSessionHistorySnapshot :=
  groupFolders.filterMap (s.loadPersistedHistorySnapshot snapshots)

/-- No restart brings back a session that has ended in `s`, from the files of `t`. -/
def StaysEnded (snapshots : List TerminalSessionHistorySnapshot) (s t : TerminalSessionService) :
    Prop :=
  ∀ managed ∈ s.sessions.cells, managed.record.status.isTerminal = true →
    ∀ (reconnectTimeoutSeconds : ℕ) (historyMaxBytes : Int) (groupFolders : List String),
      ∀ managed' ∈ (recoverActiveSessions reconnectTimeoutSeconds historyMaxBytes
        (t.listPersistedHistorySnapshots snapshots groupFolders)).sessions.cells,
          ¬ (managed'.record.sessionId = managed.record.sessionId ∧
            managed'.record.groupFolder = managed.record.groupFolder)

/-! ## The snapshots of a run -/

/-- Where a session stands. -/
def standing (s : TerminalSessionService) (i : ℕ) : Option Standing :=
  (s.sessions.get? i).map fun managed => managed.record.standing

/-- What a step does to the standings, and of which session it takes a snapshot. -/
inductive HistoryStep (s : TerminalSessionService) (a : Action) (t : TerminalSessionService) : Prop
  | keep (standing : t.standing = s.standing)
      (taken : ∀ x, s.taken a = some x → ∃ i, s.standing i = some x.standing)
  | opened {i : ℕ} {new : Standing} (fresh : ∀ j old, s.standing j = some old →
        old.sessionId ≠ new.sessionId) (free : s.standing i = none) (active : new.ended = false)
      (standing : t.standing = Function.update s.standing i (some new)) (taken : s.taken a = none)
  | assigned {i : ℕ} {before after : Standing} (found : s.standing i = some before)
      (sessionId : after.sessionId = before.sessionId)
      (groupFolder : after.groupFolder = before.groupFolder)
      (ended : before.ended = true → after.ended = true)
      (standing : t.standing = Function.update s.standing i (some after))
      (taken : (∃ x, s.taken a = some x ∧ x.standing = after) ∨
        s.taken a = none ∧ after.ended = false)

/-- The snapshots that were taken, and the sessions: a session has ended once a snapshot says so,
and then a snapshot does say so. -/
structure HistoryInv (past : List TerminalSessionHistorySnapshot) (s : TerminalSessionService) :
    Prop where
  unique : ∀ i j x y, s.standing i = some x → s.standing j = some y → x.sessionId = y.sessionId →
    i = j
  final : past.Pairwise fun x y => x.standing.sessionId = y.standing.sessionId →
    x.standing.ended = true → y.standing.ended = true
  ended : ∀ x ∈ past, x.standing.ended = true → ∀ i y, s.standing i = some y →
    y.sessionId = x.standing.sessionId → y.ended = true
  place : ∀ x ∈ past, ∃ i y, s.standing i = some y ∧ y.sessionId = x.standing.sessionId ∧
    y.groupFolder = x.standing.groupFolder
  snapshot : ∀ i y, s.standing i = some y → y.ended = true → ∃ x ∈ past, x.standing = y

/-- A step that takes at most a snapshot of a session as it stands. -/
theorem HistoryInv.keep (h : HistoryInv past s) (hstanding : t.standing = s.standing)
    (htaken : ∀ x, s.taken a = some x → ∃ i, s.standing i = some x.standing) :
    HistoryInv (past ++ (s.taken a).toList) t := by
  -- A snapshot of a session as it stands.
  have hmem : ∀ x ∈ past ++ (s.taken a).toList, x ∈ past ∨
      ∃ i, s.standing i = some x.standing := by
    intro x hx
    rcases List.mem_append.mp hx with hx | hx
    · exact .inl hx
    · exact .inr (htaken x (Option.mem_toList.mp hx))
  refine ⟨?_, ?_, ?_, ?_, ?_⟩
  · rw [hstanding]
    exact h.unique
  · refine List.pairwise_append.mpr ⟨h.final, ?_, fun x hx y hy hid hended => ?_⟩
    · cases s.taken a <;> simp
    · obtain ⟨i, hi⟩ := htaken y (Option.mem_toList.mp hy)
      exact h.ended x hx hended i y.standing hi hid.symm
  · intro x hx hended i y hi hid
    rw [hstanding] at hi
    rcases hmem x hx with hx | ⟨j, hj⟩
    · exact h.ended x hx hended i y hi hid
    · obtain rfl := h.unique i j y x.standing hi hj hid
      rw [hi] at hj
      rwa [Option.some.inj hj]
  · intro x hx
    rw [hstanding]
    rcases hmem x hx with hx | ⟨j, hj⟩
    · exact h.place x hx
    · exact ⟨j, x.standing, hj, rfl, rfl⟩
  · intro i y hi hended
    rw [hstanding] at hi
    obtain ⟨x, hx, heq⟩ := h.snapshot i y hi hended
    exact ⟨x, List.mem_append_left _ hx, heq⟩

/-- A session whose id is new. -/
theorem HistoryInv.opened (h : HistoryInv past s) {i : ℕ} {new : Standing}
    (hfresh : ∀ j old, s.standing j = some old → old.sessionId ≠ new.sessionId)
    (hfree : s.standing i = none) (hactive : new.ended = false)
    (hstanding : t.standing = Function.update s.standing i (some new)) : HistoryInv past t := by
  have hcases : ∀ j y, t.standing j = some y → j = i ∧ y = new ∨ s.standing j = some y := by
    intro j y hj
    rw [hstanding] at hj
    by_cases hji : j = i
    · rw [hji, Function.update_self] at hj
      exact .inl ⟨hji, (Option.some.inj hj).symm⟩
    · rw [Function.update_of_ne hji] at hj
      exact .inr hj
  refine ⟨?_, h.final, ?_, ?_, ?_⟩
  · intro j k x y hj hk hid
    rcases hcases j x hj with ⟨rfl, rfl⟩ | hj'
    · rcases hcases k y hk with ⟨rfl, -⟩ | hk'
      · rfl
      · exact absurd hid.symm (hfresh k y hk')
    · rcases hcases k y hk with ⟨rfl, rfl⟩ | hk'
      · exact absurd hid (hfresh j x hj')
      · exact h.unique j k x y hj' hk' hid
  · intro x hx hended j y hj hid
    rcases hcases j y hj with ⟨-, rfl⟩ | hj'
    · -- The new session has an id that no snapshot has.
      obtain ⟨k, z, hk, hkid, -⟩ := h.place x hx
      exact absurd (hkid.trans hid.symm) (hfresh k z hk)
    · exact h.ended x hx hended j y hj' hid
  · intro x hx
    obtain ⟨j, y, hj, hid⟩ := h.place x hx
    refine ⟨j, y, ?_, hid⟩
    rw [hstanding, Function.update_of_ne, hj]
    rintro rfl
    rw [hfree] at hj
    cases hj
  · intro j y hj hended
    rcases hcases j y hj with ⟨-, rfl⟩ | hj'
    · rw [hactive] at hended
      cases hended
    · exact h.snapshot j y hj' hended

/-- A session that stays the one it was, and has not begun again. A snapshot of it is taken as it
stands then, and one must be taken when it ends. -/
theorem HistoryInv.assigned (h : HistoryInv past s) {i : ℕ} {before after : Standing}
    (hfound : s.standing i = some before) (hid : after.sessionId = before.sessionId)
    (hgroup : after.groupFolder = before.groupFolder)
    (hended : before.ended = true → after.ended = true)
    (hstanding : t.standing = Function.update s.standing i (some after))
    (htaken : (∃ x, s.taken a = some x ∧ x.standing = after) ∨
      s.taken a = none ∧ after.ended = false) :
    HistoryInv (past ++ (s.taken a).toList) t := by
  have hnew : ∀ x ∈ (s.taken a).toList, x.standing = after := by
    intro x hx
    rcases htaken with ⟨y, hy, heq⟩ | ⟨hnone, -⟩
    · rw [hy, Option.toList_some, List.mem_singleton] at hx
      rw [hx, heq]
    · rw [hnone] at hx
      cases hx
  have hself : t.standing i = some after := by rw [hstanding, Function.update_self]
  have hother : ∀ j, j ≠ i → t.standing j = s.standing j := by
    intro j hj
    rw [hstanding, Function.update_of_ne hj]
  refine ⟨?_, ?_, ?_, ?_, ?_⟩
  · -- The session keeps its id.
    have hbefore : ∀ j x, t.standing j = some x →
        ∃ x', s.standing j = some x' ∧ x'.sessionId = x.sessionId := by
      intro j x hj
      by_cases hji : j = i
      · rw [hji, hself] at hj
        exact ⟨before, hji ▸ hfound, by rw [← hid, Option.some.inj hj]⟩
      · exact ⟨x, hother j hji ▸ hj, rfl⟩
    intro j k x y hj hk hxy
    obtain ⟨x', hx', hxid⟩ := hbefore j x hj
    obtain ⟨y', hy', hyid⟩ := hbefore k y hk
    exact h.unique j k x' y' hx' hy' (hxid.trans (hxy.trans hyid.symm))
  · refine List.pairwise_append.mpr ⟨h.final, ?_, fun x hx y hy hxy hx' => ?_⟩
    · cases s.taken a <;> simp
    · rw [hnew y hy] at hxy ⊢
      exact hended (h.ended x hx hx' i before hfound (hid.symm.trans hxy.symm))
  · intro x hx hx' j y hj hxy
    by_cases hji : j = i
    · rw [hji, hself] at hj
      obtain rfl := Option.some.inj hj
      rcases List.mem_append.mp hx with hx | hx
      · exact hended (h.ended x hx hx' i before hfound (hid.symm.trans hxy))
      · rwa [hnew x hx] at hx'
    · rcases List.mem_append.mp hx with hx | hx
      · exact h.ended x hx hx' j y (hother j hji ▸ hj) hxy
      · rw [hnew x hx, hid] at hxy
        exact absurd (h.unique j i y before (hother j hji ▸ hj) hfound hxy) hji
  · intro x hx
    rcases List.mem_append.mp hx with hx | hx
    · obtain ⟨j, y, hj, hjid, hjgroup⟩ := h.place x hx
      by_cases hji : j = i
      · rw [hji, hfound] at hj
        obtain rfl := Option.some.inj hj
        exact ⟨i, after, hself, hid.trans hjid, hgroup.trans hjgroup⟩
      · exact ⟨j, y, (hother j hji).trans hj, hjid, hjgroup⟩
    · rw [hnew x hx]
      exact ⟨i, after, hself, rfl, rfl⟩
  · intro j y hj hy
    by_cases hji : j = i
    · rw [hji, hself] at hj
      obtain rfl := Option.some.inj hj
      rcases htaken with ⟨x, hx, heq⟩ | ⟨-, hactive⟩
      · exact ⟨x, List.mem_append_right _ (Option.mem_toList.mpr hx), heq⟩
      · rw [hactive] at hy
        cases hy
    · obtain ⟨x, hx, heq⟩ := h.snapshot j y (hother j hji ▸ hj) hy
      exact ⟨x, List.mem_append_left _ hx, heq⟩

theorem HistoryInv.step (h : HistoryInv past s) (hstep : HistoryStep s a t) :
    HistoryInv (past ++ (s.taken a).toList) t := by
  cases hstep with
  | keep standing taken => exact h.keep standing taken
  | opened fresh free active standing taken =>
    rw [taken, Option.toList_none, List.append_nil]
    exact h.opened fresh free active standing
  | assigned found sessionId groupFolder ended standing taken =>
    exact h.assigned found sessionId groupFolder ended standing taken

theorem standing_of_modify {i : ℕ} {managed managed' : ManagedTerminalSession}
    (hi : s.sessions.get? i = some managed)
    (hs : t.sessions = s.sessions.modify i fun _ => managed') :
    t.standing = Function.update s.standing i (some managed'.record.standing) := by
  funext j
  unfold standing
  rw [hs, Heap.get?_modify]
  by_cases hj : j = i
  · rw [if_pos hj, hj, Function.update_self, hi]
    rfl
  · rw [if_neg hj, Function.update_of_ne hj]

theorem standing_congr (h : t.sessions = s.sessions) : t.standing = s.standing := by
  funext i
  rw [standing, standing, h]

theorem standing_opened (managed : ManagedTerminalSession) (s : TerminalSessionService) :
    (s.opened managed).standing =
      Function.update s.standing s.sessions.size (some managed.record.standing) := by
  funext i
  show ((s.sessions.alloc managed).get? i).map _ = _
  rw [Heap.get?_alloc]
  by_cases hi : i = s.sessions.size
  · rw [if_pos hi, hi, Function.update_self]
    rfl
  · rw [if_neg hi, Function.update_of_ne hi]
    rfl

theorem Vacated.standing {groupFolder : String} (h : Vacated s groupFolder u) :
    u.standing = s.standing := by
  cases h with
  | free => rfl
  | @drop i managed found ended =>
    funext j
    unfold TerminalSessionService.standing
    rw [(frame_dropSession i managed s).sessions, Heap.get?_modify]
    split
    · rw [Option.map_map]
      rfl
    · rfl

/-- **Creations** and the sessions: a new session is running. -/
theorem historyStep_create {groupId groupFolder ownerUserId sessionId : String}
    {requestedMode : TerminalRequestedMode} {factory : Except String (Option String)}
    (hfresh : s.Fresh (.create groupId groupFolder ownerUserId requestedMode sessionId factory))
    (hstep : s.step (.create groupId groupFolder ownerUserId requestedMode sessionId factory) =
      some t) :
    HistoryStep s (.create groupId groupFolder ownerUserId requestedMode sessionId factory) t := by
  have htaken : s.taken (.create groupId groupFolder ownerUserId requestedMode sessionId factory) =
      none := rfl
  have hkeep : t.standing = s.standing →
      HistoryStep s (.create groupId groupFolder ownerUserId requestedMode sessionId factory) t :=
    fun h => .keep h fun x hx => by
      rw [htaken] at hx
      cases hx
  rcases step_create hstep with hframe | ⟨u, hu, hframe | ⟨managed, hm, hframe⟩⟩
  · exact hkeep (standing_congr hframe.sessions)
  · exact hkeep ((standing_congr hframe.sessions).trans hu.standing)
  · have hstanding := (standing_congr hframe.sessions).trans (standing_opened managed u)
    rw [hu.standing] at hstanding
    refine .opened (fun j old hj => ?_) ?_ ?_ hstanding htaken
    · obtain ⟨m, hget, rfl⟩ := Option.map_eq_some_iff.mp hj
      show m.record.sessionId ≠ managed.record.sessionId
      rw [hm.sessionId]
      exact hfresh m (List.mem_of_getElem? hget)
    · rw [← hu.standing, TerminalSessionService.standing,
        (Heap.get?_eq_none_iff _ _).mpr (Nat.le_refl _)]
      rfl
    · show managed.record.status.isTerminal = false
      rw [hm.status]
      rfl

/-- **Steps** and the sessions. -/
theorem Inv.historyStep (h : Inv s) (hfresh : s.Fresh a)
    (hback : ∀ found ∈ s.target a, found.2.1.record.status.isTerminal = true →
      found.2.2.takesBack = false) (hstep : s.step a = some t) : HistoryStep s a t := by
  cases hcreate : a.isCreate with
  | true =>
    cases a with
    | create => exact historyStep_create hfresh hstep
    | _ => cases hcreate
  | false =>
    have hsessions := step_sessions hcreate hstep
    cases htarget : s.target a with
    | none =>
      rw [htarget] at hsessions
      refine .keep (standing_congr hsessions.sessions) fun x hx => ?_
      -- After `bridge.start`, the session of the creation as it stands.
      rw [taken, htarget] at hx
      cases a with
      | resume task failure =>
        cases failure with
        | none =>
          obtain ⟨t, -, hx⟩ := Option.bind_eq_some_iff.mp hx
          obtain ⟨sessionId, -, hx⟩ := Option.bind_eq_some_iff.mp hx
          obtain ⟨⟨i, managed⟩, hi, rfl⟩ := Option.map_eq_some_iff.mp hx
          refine ⟨i, ?_⟩
          rw [TerminalSessionService.standing, (session_eq_some.mp hi).2]
          rfl
        | some => cases hx
      | _ => cases hx
    | some found =>
      obtain ⟨i, managed, effect⟩ := found
      rw [htarget] at hsessions
      obtain ⟨managed', hm, hsame⟩ := hsessions
      have hi := (h.found htarget).get?
      have hs : t.sessions = s.sessions.modify i fun _ => managed' := hsame.sessions
      have hstatus := hm.status
      refine @HistoryStep.assigned _ _ _ i managed.record.standing managed'.record.standing ?_
        hm.sessionId hm.groupFolder (fun hended => ?_) (standing_of_modify hi hs) ?_
      · rw [TerminalSessionService.standing, hi]
        rfl
      · have hnot := hback _ htarget hended
        show managed'.record.status.isTerminal = true
        rw [hstatus]
        cases effect with
        | attach | attachRaising | detach => cases hnot
        | close | exit | expire | failAttach => rfl
        | output => exact hended
      · cases heffect : effect.isPersisted with
        | true => exact .inl ⟨_, taken_of_target hstep htarget heffect hi hs, rfl⟩
        | false =>
          refine .inr ⟨taken_of_not_persisted htarget heffect, ?_⟩
          show managed'.record.status.isTerminal = false
          rw [hstatus]
          cases effect with
          | attachRaising => rfl
          | _ => cases heffect

/-! ## The files -/

theorem InOrder.current (h : InOrder past s a) (hinv : Inv s) (hstep : s.step a = some t)
    (hcurrent : Current TerminalSessionHistorySnapshot.files past s.written s.Pending) :
    Current TerminalSessionHistorySnapshot.files (past ++ (s.taken a).toList) t.written
      t.Pending := by
  have hpersist := hinv.persistStep hstep
  rw [hpersist.written]
  refine hcurrent.next hpersist.taken hpersist.pending hpersist.kept hpersist.only ?_ h.lost
  intro x hx file hfile hnewest
  -- A job that writes takes no snapshot.
  have htaken : s.taken a = none := by
    cases a with
    | write => rfl
    | _ => cases hx
  rw [htaken, Option.toList_none, List.append_nil] at hnewest
  exact h.written x hx file hfile hnewest

/-- Once everything is written, the files hold the newest snapshots. -/
theorem HistoryInv.upToDate (h : HistoryInv past s) (hsettled : s.Settled)
    (hcurrent : Current TerminalSessionHistorySnapshot.files past s.written s.Pending) :
    UpToDate past s where
  latest groupFolder := by
    rw [content, hcurrent.last_written hsettled.not_pending]
    exact last_congr TerminalSessionHistorySnapshot.latest_mem_files past
  archive groupFolder sessionId := by
    rw [content, hcurrent.last_written hsettled.not_pending]
    refine last_filter TerminalSessionHistorySnapshot.archive_mem_files (h.final.imp ?_)
    -- The snapshots of an ended session come last.
    intro x y hxy hx hy hended
    simp only [TerminalSessionHistorySnapshot.sessions, List.mem_singleton, Prod.mk.injEq] at hx hy
    exact hxy (hx.2.symm.trans hy.2) hended

/-! ## Recovery -/

/-- A recovered session comes from a snapshot of a running one. -/
theorem mem_sessions_recoverActiveSessions {reconnectTimeoutSeconds : ℕ} {historyMaxBytes : Int}
    {snapshots : List TerminalSessionHistorySnapshot} {managed : ManagedTerminalSession}
    (h : managed ∈
      (recoverActiveSessions reconnectTimeoutSeconds historyMaxBytes snapshots).sessions.cells) :
    ∃ snapshot ∈ snapshots, snapshot.record.status.isRecoverable = true ∧
      managed.record = { snapshot.record with status := .detached, reconnectDeadline := none } := by
  obtain ⟨i, hi⟩ := List.getElem?_of_mem h
  obtain ⟨_, -, snapshot, hsnapshot, hrecovered⟩ := exists_recovered hi
  exact ⟨snapshot, hsnapshot, hrecovered.recoverable, hrecovered.record⟩

/-- The newest snapshot of a workspace is not of a running session that a snapshot says has
ended. -/
theorem UpToDate.staysEnded {before : List TerminalSessionHistorySnapshot}
    {snapshots : List TerminalSessionHistorySnapshot} (h : UpToDate past t)
    (hfinal : past.Pairwise fun x y => x.standing.sessionId = y.standing.sessionId →
      x.standing.ended = true → y.standing.ended = true)
    (hbefore : HistoryInv before s) (hpast : ∀ x ∈ before, x ∈ past) :
    StaysEnded snapshots s t := by
  intro managed hmem hended reconnectTimeoutSeconds historyMaxBytes groupFolders managed' hmem'
  rintro ⟨hid, hgroup⟩
  obtain ⟨i, hi⟩ := List.getElem?_of_mem hmem
  have hstanding : s.standing i = some managed.record.standing := by
    show (s.sessions.get? i).map _ = _
    rw [show s.sessions.get? i = some managed from hi]
    rfl
  -- A snapshot says that the session has ended, and it is not older than the newest.
  obtain ⟨x, hx, hxstanding⟩ := hbefore.snapshot i managed.record.standing hstanding hended
  have hxgroup : managed.record.groupFolder ∈ x.workspaces :=
    List.mem_singleton.mpr (congrArg Standing.groupFolder hxstanding).symm
  obtain ⟨y, hy, hxy⟩ := last_of_pairwise hfinal (hpast x hx) hxgroup
  obtain ⟨snapshot, hsnapshot, hrecoverable, hrecord⟩ := mem_sessions_recoverActiveSessions hmem'
  obtain ⟨groupFolder, -, hlatest⟩ := List.mem_filterMap.mp hsnapshot
  have hsnapshotGroup : snapshot.record.groupFolder = managed.record.groupFolder := by
    rw [← hgroup, hrecord]
  have hsnapshotId : snapshot.record.sessionId = managed.record.sessionId := by
    rw [← hid, hrecord]
  -- It is the snapshot that was read.
  have hsame : groupFolder = managed.record.groupFolder := by
    rw [← hsnapshotGroup]
    cases hc : t.content (.latest groupFolder) with
    | some z =>
      rw [loadPersistedHistorySnapshot, hc, Option.some_or] at hlatest
      obtain rfl := Option.some.inj hlatest
      rw [h.latest] at hc
      exact List.mem_singleton.mp (mem_of_last hc).2
    | none =>
      rw [loadPersistedHistorySnapshot, hc, Option.none_or] at hlatest
      have hfound := List.find?_some hlatest
      exact (of_decide_eq_true hfound).symm
  obtain rfl : y = snapshot := by
    rw [loadPersistedHistorySnapshot, h.latest, hsame, hy, Option.some_or] at hlatest
    exact Option.some.inj hlatest
  have hyended : y.standing.ended = true := by
    have hxended : x.standing.ended = true := by
      rw [hxstanding]
      exact hended
    rcases hxy with rfl | hxy
    · exact hxended
    · refine hxy ?_ hxended
      rw [hxstanding]
      exact hsnapshotId.symm
  rw [TerminalSessionStatus.isRecoverable,
    show y.record.status.isTerminal = true from hyended] at hrecoverable
  cases hrecoverable

/-! ## Runs -/

theorem historyInv_recoverActiveSessions (reconnectTimeoutSeconds : ℕ) (historyMaxBytes : Int)
    (snapshots : List TerminalSessionHistorySnapshot) :
    HistoryInv [] (recoverActiveSessions reconnectTimeoutSeconds historyMaxBytes snapshots) where
  unique i j x y hi hj hid := by
    obtain ⟨m, hm, rfl⟩ := Option.map_eq_some_iff.mp hi
    obtain ⟨m', hm', rfl⟩ := Option.map_eq_some_iff.mp hj
    have hinv := (inv_recoverActiveSessions reconnectTimeoutSeconds historyMaxBytes snapshots).1
    exact hinv.unique i j m m' hm hm' hid
  final := .nil
  ended := nofun
  place := nofun
  snapshot i y hi hended := by
    -- Recovered sessions are detached.
    obtain ⟨m, hm, rfl⟩ := Option.map_eq_some_iff.mp hi
    obtain ⟨x, -, -, hrecord⟩ := mem_sessions_recoverActiveSessions (List.mem_of_getElem? hm)
    rw [hrecord] at hended
    cases hended

/-- A recovered service has nothing to write. -/
theorem current_recoverActiveSessions (reconnectTimeoutSeconds : ℕ) (historyMaxBytes : Int)
    (snapshots : List TerminalSessionHistorySnapshot) :
    Current TerminalSessionHistorySnapshot.files []
      (recoverActiveSessions reconnectTimeoutSeconds historyMaxBytes snapshots).written
      (recoverActiveSessions reconnectTimeoutSeconds historyMaxBytes snapshots).Pending := by
  obtain ⟨hwritten, hjobs⟩ := persists_recoverActiveSessions reconnectTimeoutSeconds
    historyMaxBytes snapshots
  have htasks := tasks_recoverActiveSessions reconnectTimeoutSeconds historyMaxBytes snapshots
  refine ⟨fun file x hx => ?_, ?_, ?_⟩
  · rw [last_nil] at hx
    cases hx
  · rw [hwritten]
    exact nofun
  · rintro x (⟨job, hx⟩ | ⟨task, hx⟩)
    · rw [carried, hjobs] at hx
      cases hx
    · rw [watch, phase?, htasks] at hx
      cases hx

/-- What the snapshots say of the sessions and the files, in every run in order. -/
theorem current_of_inOrder {reconnectTimeoutSeconds : ℕ} {historyMaxBytes : Int}
    {snapshots : List TerminalSessionHistorySnapshot} {l : List Action}
    (h : Run step Fresh
      (recoverActiveSessions reconnectTimeoutSeconds historyMaxBytes snapshots) l t)
    (horder : Along step taken InOrder []
      (recoverActiveSessions reconnectTimeoutSeconds historyMaxBytes snapshots) l) :
    HistoryInv (trace step taken
        (recoverActiveSessions reconnectTimeoutSeconds historyMaxBytes snapshots) l) t ∧
      Current TerminalSessionHistorySnapshot.files (trace step taken
        (recoverActiveSessions reconnectTimeoutSeconds historyMaxBytes snapshots) l)
        t.written t.Pending := by
  have hinit := (inv_recoverActiveSessions reconnectTimeoutSeconds historyMaxBytes snapshots).1
  have hinv := h.invariant_along
    (I := fun past t => Inv t ∧ HistoryInv past t ∧
      Current TerminalSessionHistorySnapshot.files past t.written t.Pending) horder
    ⟨hinit, historyInv_recoverActiveSessions _ _ _, current_recoverActiveSessions _ _ _⟩ ?_
  · exact hinv.2
  · rintro past t u a ⟨hinv, hhistory, hcurrent⟩ hfresh horder hstep
    exact ⟨hinv.step hfresh hstep, hhistory.step (hinv.historyStep hfresh horder.back hstep),
      horder.current hinv hstep hcurrent⟩

/-- The snapshots are up to date in every settled state of a run, and a restart there brings back
no session that has ended before. -/
def ForwardInTime (snapshots : List TerminalSessionHistorySnapshot) (s : TerminalSessionService)
    (l : List Action) : Prop :=
  ∀ l₁ l₂ t, l = l₁ ++ l₂ → Run step Fresh s l₁ t → t.Settled →
    UpToDate (trace step taken s l₁) t ∧
      ∀ l₃ l₄ u, l₁ = l₃ ++ l₄ → Run step Fresh s l₃ u → StaysEnded snapshots u t

/-- **Persistence does not go back in time.** In a run of a recovered service in which every step
is in order, the files are up to date whenever all jobs have finished, and a restart then brings
back no session that has ended. -/
theorem forwardInTime_of_inOrder {reconnectTimeoutSeconds : ℕ} {historyMaxBytes : Int}
    {snapshots : List TerminalSessionHistorySnapshot} {l : List Action}
    (horder : Along step taken InOrder []
      (recoverActiveSessions reconnectTimeoutSeconds historyMaxBytes snapshots) l) :
    ForwardInTime snapshots
      (recoverActiveSessions reconnectTimeoutSeconds historyMaxBytes snapshots) l := by
  rintro l₁ l₂ t rfl ht hsettled
  have horder₁ := ((ht.along_append l₂).mp horder).1
  obtain ⟨hhistory, hcurrent⟩ := current_of_inOrder ht horder₁
  have hfiles := hhistory.upToDate hsettled hcurrent
  refine ⟨hfiles, ?_⟩
  rintro l₃ l₄ u rfl hu
  obtain ⟨hbefore, -⟩ := current_of_inOrder hu ((hu.along_append l₄).mp horder₁).1
  refine hfiles.staysEnded hhistory.final hbefore fun x hx => ?_
  rw [hu.trace_append]
  exact List.mem_append_left _ hx

/-- A session is created, its shell prints, and it is closed; the jobs are written in the order
in which the snapshots were taken. -/
def closedWorkspace (jobs : List ℕ) : List Action :=
  [.create "home" "home" "alice" .container "s" (.ok none), .resume 0 none,
    .bridgeEvent 0 { type := .output, data := some "x" }, .close "s" "alice", .resume 2 none] ++
    jobs.map fun job => .write job false

/-- The theorem applies. -/
theorem forwardInTime_of_inOrder_closed :
    ForwardInTime [] (recoverActiveSessions 30 32768 []) (closedWorkspace [0, 1, 2]) :=
  forwardInTime_of_inOrder (by decide)

/-- The job of the output is written after that of the close, and a restart brings the closed
session back. -/
theorem not_forwardInTime : ¬ ForwardInTime [] (recoverActiveSessions 30 32768 [])
    (closedWorkspace [0, 2, 1]) := by
  intro hforward
  have hrun : Run step Fresh (recoverActiveSessions 30 32768 []) (closedWorkspace [0, 2, 1]) _ :=
    .of_execute (by decide)
  obtain ⟨-, hstays⟩ := hforward (closedWorkspace [0, 2, 1]) [] _ rfl hrun ⟨by decide, by decide⟩
  have hback := hstays (closedWorkspace [0, 2, 1]) [] _ rfl hrun
  -- The closed session, and the one that is recovered.
  obtain ⟨managed, hmem, hended, managed', hmem', hsame⟩ :
      ∃ managed ∈ ((execute step Fresh (recoverActiveSessions 30 32768 [])
        (closedWorkspace [0, 2, 1])).get (by decide)).sessions.cells,
        managed.record.status.isTerminal = true ∧ ∃ managed' ∈ (recoverActiveSessions 30 32768
          (listPersistedHistorySnapshots [] ["home"] ((execute step Fresh
            (recoverActiveSessions 30 32768 []) (closedWorkspace [0, 2, 1])).get (by decide)))
              ).sessions.cells,
          managed'.record.sessionId = managed.record.sessionId ∧
            managed'.record.groupFolder = managed.record.groupFolder := by decide
  exact hback managed hmem hended 30 32768 ["home"] managed' hmem' hsame

end TerminalSessionService

end Portex
